import SolidScript.Host
import SolidScript.Host.Disk

/-!
# Machine

A host that is kept in memory: a disk, variables, programs, and what has been put on the streams.
Runs on it are functions, so what the program does to a host can be computed and reasoned about.
-/

namespace SolidScript

/-- How a program behaves. -/
inductive Tool where
  /-- It cannot be started. -/
  | refuses (cause : OsError)
  /-- It is started and does not read to the end. -/
  | breaksOff (cause : OsError)
  /-- It reads to the end and comes to an end itself. -/
  | ends (status : ExitStatus)
deriving DecidableEq, Repr

/-- A program that has been started, and what it was given to read, if anything. -/
structure Started where
  program : Text
  arguments : List Bytes
  input : Option Bytes
deriving DecidableEq, Repr

structure Machine where
  disk : Disk := {}
  /-- The current directory, or why it cannot be read. -/
  currentDir : Except OsError Path := .ok (.ofString "/")
  environment : List (Text × Bytes) := []
  /-- The programs that can be asked for by name. -/
  programs : List (Text × Tool) := []
  started : List Started := []
  output : Text := []
  errors : Text := []
  records : List Record := []
  logger : Option Logger := none
  time : Nat := 0

namespace Machine

/-- The place that relative paths start from. Where the current directory is gone they find
nothing. -/
def here (machine : Machine) : Location :=
  match machine.currentDir with
  | .ok dir => Disk.place dir
  | .error _ => [[]]

/-- The program of a name. A name with a slash is a path; a file is no program, and neither is a
directory. -/
def tool (machine : Machine) (name : Text) : Tool :=
  match machine.programs.lookup name with
  | some tool => tool
  | none =>
    if name.contains '/' then
      match machine.disk.locate machine.here (.ofText name) with
      | .error e => .refuses e
      | .ok place =>
        if (machine.disk.find? place).isSome then .refuses .permissionDenied
        else .refuses .notFound
    else .refuses .notFound

def setVariable (machine : Machine) (name : Text) (value : Option Bytes) : Machine :=
  let others := machine.environment.filter fun v => v.1 ≠ name
  { machine with environment := (value.map fun value => (name, value)).toList ++ others }

/-- What comes of starting a program with something to read. -/
def feed (machine : Machine) (program : Text) (arguments : List Text) (input : Bytes) :
    Feeding × Machine :=
  let started : Started := ⟨program, arguments.map Utf8.encode, some input⟩
  match machine.tool program with
  | .refuses cause => (.notStarted cause, machine)
  | .breaksOff cause =>
    (.brokenOff cause, { machine with started := machine.started ++ [started] })
  | .ends status => (.ended status, { machine with started := machine.started ++ [started] })

/-- What comes of starting a program on a file. -/
def launch (machine : Machine) (program : Text) (file : Path) : Except OsError Unit × Machine :=
  match machine.tool program with
  | .refuses cause => (.error cause, machine)
  | .breaksOff _ | .ends _ =>
    (.ok (), { machine with started := machine.started ++ [⟨program, [file.bytes], none⟩] })

/-- The paths in a directory that are tried for a new file, their last names between two texts.
There are more of them than there are files. -/
def newPaths (machine : Machine) (directory : Path) (start stop : Text) : List Path :=
  (List.range (machine.disk.entries.length + 1)).map fun n =>
    directory.join (.ofText (start ++ digits n ++ stop))

/-- A path under the current directory. An absolute path is the same from everywhere. -/
def absolute (machine : Machine) (path : Path) : Except OsError Path :=
  if path.isAbsolute then .ok path else machine.currentDir.map fun dir => dir.join path

/-- What comes of making a file under a new name. Its path is absolute. -/
def writeNew (machine : Machine) (directory : Path) (start stop : Text) (content : Bytes) :
    Except OsError Path × Machine :=
  match machine.absolute directory with
  | .error e => (.error e, machine)
  | .ok directory =>
    match (machine.newPaths directory start stop).find? fun file =>
        !machine.disk.exists? machine.here file with
    | none => (.error (.other 17 "File exists".toList), machine)
    | some file =>
      match machine.disk.write machine.here file content with
      | .error e => (.error e, machine)
      | .ok disk => (.ok file, { machine with disk })

/-- The machine after a record. -/
def log (machine : Machine) (record : Record) : Machine :=
  { machine with
    records := machine.records ++ [record]
    errors := machine.errors ++ (machine.logger.map (·.write record)).getD [] }

instance : Host (StateM Machine) where
  readFile file := do
    let machine ← get
    return machine.disk.read machine.here file
  writeFile file content := do
    let machine ← get
    match machine.disk.write machine.here file content with
    | .error e => return .error e
    | .ok disk =>
      set { machine with disk }
      return .ok ()
  exists? file := do
    let machine ← get
    return machine.disk.exists? machine.here file
  writeNew directory start stop content := modifyGet (·.writeNew directory start stop content)
  lookup name := do return (← get).environment.lookup name
  feed program arguments input := modifyGet (·.feed program arguments input)
  launch program file := modifyGet (·.launch program file)
  print t := modify fun machine => { machine with output := machine.output ++ t }
  report t := modify fun machine => { machine with errors := machine.errors ++ t }
  log record := modify (·.log record)
  setLogger logger := modify fun machine =>
    { machine with logger := machine.logger.or (some logger) }
  clock := do return (← get).time

end Machine

end SolidScript
