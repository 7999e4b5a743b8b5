import SolidScript.Files

/-!
# Editor

A script is shown in the modeling program through a file of its own, which is kept: the program is
not waited for, and reads the file when it likes.
-/

namespace SolidScript.Editor

/-- The variable that names another program. -/
def programVariable : Text := "OPENSCAD_PATH".toList

def usualProgram : Text := "openscad".toList

/-- The program, by the value of its variable. A value that is no text counts as absent. -/
def program (value : Option Bytes) : Text := (value.bind Utf8.decode?).getD usualProgram

/-- The variable that names the directory for files of this kind. -/
def directoryVariable : Text := "TMPDIR".toList

def directory (value : Option Bytes) : Path := (value.map Path.mk).getD (.ofString "/tmp")

variable {m : Type → Type} [Monad m] [Host m]

def opened (file : Path) (program : Text) : Record where
  level := .debug
  source := "scadkit::io::sink"
  message := "opened ".toList ++ file.display ++ " in ".toList ++ program

/-- Puts a script into a new file and starts the program on it. The path of the file is the
answer. -/
def openScript (script : Text) : ExceptT Fault m Path := do
  let program := program (← Host.lookup (m := m) programVariable)
  let directory := directory (← Host.lookup (m := m) directoryVariable)
  let file ← Files.accessing directory
    (Host.writeNew directory "scadkit-".toList ".scad".toList (Utf8.encode script))
  match ← Host.launch (m := m) program file with
  | .error cause => throw (.launch program cause)
  | .ok () =>
    Host.log (m := m) (opened file program)
    return file

end SolidScript.Editor
