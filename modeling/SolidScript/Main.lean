import SolidScript.CommandLine.Run

/-!
# The program

The command line on a system. Files are read and written here and texts are printed; what is read
and what is printed is decided by `CommandLine.run`. No other programs are started from here: to the
rest of the library a clipboard tool and an editor look as if they were not installed.
-/

namespace SolidScript.Live

/-- What the system says of a failure. -/
def osError : IO.Error → OsError
  | .noFileOrDirectory _ _ _ => .notFound
  | .permissionDenied _ _ _ => .permissionDenied
  | .inappropriateType _ code _ => if code = 20 then .notADirectory else .isADirectory
  | .resourceVanished _ _ => .brokenPipe
  | e => .other 5 (toString e).toList

def attempt {α : Type} (action : IO α) : IO (Except OsError α) := do
  try
    return .ok (← action)
  catch e =>
    return .error (osError e)

/-- A path in the form that the system is asked with. -/
def spelled (path : Path) : String := String.ofList path.display

def readFile (path : Path) : IO (Except OsError Bytes) :=
  if path.bytes.contains 0 then return .error .zeroInName
  else attempt do return (← IO.FS.readBinFile (spelled path)).toList

def writeFile (path : Path) (content : Bytes) : IO (Except OsError Unit) :=
  if path.bytes.contains 0 then return .error .zeroInName
  else attempt (IO.FS.writeBinFile (spelled path) content.toByteArray)

/-- What cannot be looked for is not there. -/
def isThere (path : Path) : IO Bool := do
  match ← readFile path with
  | .error .notFound | .error .notADirectory | .error .zeroInName => return false
  | _ => return true

/-- A path under the current directory. -/
def absolute (path : Path) : IO Path := do
  if path.isAbsolute then return path
  else return (Path.ofString (← IO.currentDir).toString).join path

/-- A name that is hardly taken, between two texts. -/
def newName (start stop : Text) : IO Path := do
  return .ofText (start ++ digits (← IO.rand 0 0x1000000000000000) ++ stop)

def writeNew (directory : Path) (start stop : Text) (content : Bytes) :
    IO (Except OsError Path) :=
  attempt do
    let file := (← absolute directory).join (← newName start stop)
    let handle ← IO.FS.Handle.mk (spelled file) .writeNew
    handle.write content.toByteArray
    return file

/-- Actions of the program, with the logger that it has been given. -/
abbrev Action := StateT (Option Logger) IO

instance : Host Action where
  readFile path := readFile path
  writeFile path content := writeFile path content
  exists? path := isThere path
  writeNew directory start stop content := writeNew directory start stop content
  lookup name := do return (← IO.getEnv (String.ofList name)).map fun v => Utf8.encode v.toList
  feed _ _ _ := return .notStarted .notFound
  launch _ _ := return .error .notFound
  print t := do
    let out ← IO.getStdout
    out.putStr (String.ofList t)
    out.flush
  report t := IO.eprint (String.ofList t)
  log record := do
    IO.eprint (String.ofList (((← get).map (·.write record)).getD []))
  setLogger logger := modify (·.or (some logger))
  clock := IO.monoNanosNow

end SolidScript.Live

/-- Runs the command line on the arguments of the process. -/
def main (arguments : List String) : IO UInt32 := do
  let run : SolidScript.Live.Action Nat :=
    SolidScript.CommandLine.run (arguments.map fun a => SolidScript.Utf8.encode a.toList)
  let (status, _) ← run.run none
  return UInt32.ofNat status
