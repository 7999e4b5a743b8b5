import SolidScript.Document
import SolidScript.Fault
import SolidScript.Host
import SolidScript.Script
import SolidScript.Settings.File

/-!
# Files

Models, scripts and settings in files. A model that cannot be written is found out before any file
is touched, and a file that is written holds nothing of what it held before.
-/

namespace SolidScript.Files

variable {m : Type → Type} [Monad m] [Host m]

/-- An answer of the host, as the answer of a step that can fail. -/
def accessing {α : Type} (file : Path) (ask : m (Except OsError α)) : ExceptT Fault m α := do
  match ← ask with
  | .ok a => return a
  | .error cause => throw (.access file cause)

/-- The text in a file. -/
def readText (file : Path) : ExceptT Fault m Text := do
  match Utf8.decode? (← accessing file (Host.readFile file)) with
  | some t => return t
  | none => throw (.access file .notText)

def writeText (file : Path) (t : Text) : ExceptT Fault m Unit :=
  accessing file (Host.writeFile file (Utf8.encode t))

def loadedModel (file : Path) (model : Node) : Record where
  level := .debug
  source := "scadkit::io::importer"
  message := "loaded tree with ".toList ++ digits model.count ++ " nodes from ".toList
    ++ file.display

/-- The model in a file. -/
def loadModel (file : Path) : ExceptT Fault m Node := do
  match Node.parse (← readText file) with
  | .error cause => throw (.document cause)
  | .ok model =>
    Host.log (m := m) (loadedModel file model)
    return model

/-- Puts a model into a file, on many lines. -/
def saveModel (model : Node) (file : Path) : ExceptT Fault m Unit :=
  match model.print? Json.pretty with
  | none => throw .unwritable
  | some t => writeText file t

def wroteScript (file : Path) (size : Nat) : Record where
  level := .debug
  source := "scadkit::io::exporter"
  message := "wrote ".toList ++ digits size ++ " bytes to ".toList ++ file.display

/-- Puts a script into a file, with a line feed behind it. -/
def writeScript (script : Text) (file : Path) : ExceptT Fault m Unit := do
  writeText file script.line
  Host.log (m := m) (wroteScript file (Utf8.size script.line))

/-- The script of a model. The log is told what rendering tells it. -/
def renderModel (model : Node) (settings : Settings) : m Text := do
  Host.logAll model.renderRecords
  return model.render settings

/-- Puts the script of a model into a file. -/
def exportModel (model : Node) (file : Path) (settings : Settings) : ExceptT Fault m Unit := do
  writeScript (← renderModel (m := m) model settings) file

/-- Puts the script of a model on the output stream. -/
def printModel (model : Node) (settings : Settings) : m Unit := do
  Host.print (← renderModel model settings).line

/-! ## Settings -/

/-- The file that settings are looked for in where no other is named. -/
def usualSettings : Path := .ofString "scadkit.toml"

def loadedSettings (file : Path) : Record where
  level := .debug
  source := "scadkit::config"
  message := "loaded config from ".toList ++ file.display

/-- The settings in a file. -/
def loadSettings (file : Path) : ExceptT Fault m Settings := do
  match Settings.parse (← readText file) with
  | .error cause => throw (.settingsFile file cause)
  | .ok settings =>
    Host.log (m := m) (loadedSettings file)
    return settings

def saveSettings (settings : Settings) (file : Path) : ExceptT Fault m Unit :=
  writeText file settings.toToml

/-- The settings after the variables have been looked at, and the first fault among these. -/
def override (settings : Settings) : m (Settings × Option Fault) := do
  let environment ← Host.environment [Settings.resolutionVariable, Settings.convexityVariable]
  let (settings, bad) := settings.override environment
  return (settings, bad.map .badVariable)

/-- The settings after the variables have been looked at, if none of these is at fault. -/
def overridden (settings : Settings) : ExceptT Fault m Settings := do
  match ← override (m := m) settings with
  | (settings, none) => return settings
  | (_, some fault) => throw fault

/-- The settings in force: those of the usual file, if there is one, under the variables. -/
def effectiveSettings : ExceptT Fault m Settings := do
  if ← Host.exists? (m := m) usualSettings then
    overridden (← loadSettings usualSettings)
  else
    overridden {}

end SolidScript.Files
