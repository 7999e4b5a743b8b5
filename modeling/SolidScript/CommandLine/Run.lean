import SolidScript.Clipboard
import SolidScript.CommandLine.Arguments
import SolidScript.Editor
import SolidScript.Files
import SolidScript.Node.Sample
import SolidScript.Report

/-!
# Running commands

What a command does to its host. The settings come first, for every command. The script of a
rendering is delivered once, to a file or to the output stream; after that the clipboard and the
editor can only warn.
-/

namespace SolidScript.CommandLine

variable {m : Type → Type} [Monad m] [Host m]

/-- Why a command ends badly: a fault, and what was being done. -/
structure Failure where
  context : Option Text
  fault : Fault
deriving DecidableEq, Repr

def Failure.message (failure : Failure) : Text :=
  match failure.context with
  | none => failure.fault.chain
  | some context => context ++ ": ".toList ++ failure.fault.chain

/-- A step of a command, and what is being done in it. -/
def within {α : Type} (context : Option Text) (step : ExceptT Fault m α) : ExceptT Failure m α :=
  ExceptT.mk do
    match ← step.run with
    | .ok a => return .ok a
    | .error fault => return .error ⟨context, fault⟩

/-- Gives records a logger that shows those of the given sources, as the variables say. -/
def startLogger (sources : List Text) (verbose : Bool) : m Unit := do
  let environment ← Host.environment Logger.variableNames
  let (logger, faults) := Logger.ofEnvironment environment sources verbose
  Host.report (faults.flatMap Logger.faultLine)
  Host.setLogger logger

/-- Whether reports have colors. -/
def colors : m Bool := do
  return Paint.isForced (← Host.environment ["CLICOLOR_FORCE".toList])

def stepFailed (name : Text) (fault : Fault) : Text := name ++ " failed: ".toList ++ fault.message

/-- A step without which a command is still a success: its fault becomes a warning. -/
def attempt {α : Type} (name : Text) (step : ExceptT Fault m α) : m (Option α) := do
  match ← step.run with
  | .ok a => return some a
  | .error fault =>
    Host.log {
      level := .warn
      source := "scadkit::cli::reporter"
      message := stepFailed name fault }
    Host.report (Report.warning (← colors) (stepFailed name fault))
    return none

/-- The settings that a command starts from. -/
def settings (file : Option Path) : ExceptT Failure m Settings := do
  match file with
  | some file =>
    let read ← within (some ("Failed to load config: ".toList ++ file.display))
      (Files.loadSettings file)
    within none (Files.overridden read)
  | none => within (some "Failed to load configuration".toList) Files.effectiveSettings

/-- Tells how a rendering went. -/
def reportRendering (input : Path) (summary : Summary) (settings : Settings) (nanoseconds : Nat) :
    m Unit := do
  Host.report
    (Report.rendering (← colors) input.display summary settings.resolution nanoseconds)

/-- Puts a script where it belongs. -/
def deliver (script : Text) (output : Option Path) (verbose : Bool) : ExceptT Failure m Unit := do
  match output with
  | some file =>
    within none (Files.writeScript script file)
    if verbose then
      Host.report (m := m)
        (Report.success (← colors (m := m)) ("Wrote ".toList ++ file.display))
  | none => Host.print (m := m) script.line

/-- Copies a script to the clipboard, if that is possible. -/
def copyScript (script : Text) (verbose : Bool) : m Unit := do
  let copied ← attempt "Copy to clipboard".toList (Clipboard.copy script)
  if copied.isSome && verbose then
    Host.report (Report.info (← colors) "Copied to clipboard".toList)

/-- Shows a script in the editor, if that is possible. -/
def openScript (script : Text) (verbose : Bool) : m Unit := do
  match ← attempt "Open in OpenSCAD".toList (Editor.openScript script) with
  | none => return
  | some file =>
    if verbose then
      Host.report
        (Report.info (← colors) ("Opened ".toList ++ file.display ++ " in OpenSCAD".toList))

/-- Renders the model in a file. -/
def render (input : Path) (output : Option Path) (clipboard editor verbose : Bool)
    (settings : Settings) : ExceptT Failure m Unit := do
  let model ← within (some ("Failed to load tree: ".toList ++ input.display))
    (Files.loadModel input)
  let start ← Host.clock (m := m)
  let script ← Files.renderModel (m := m) model settings
  let stop ← Host.clock (m := m)
  if verbose then
    reportRendering (m := m) input (model.summary script) settings (stop - start)
  deliver script output verbose
  if clipboard then copyScript (m := m) script verbose
  if editor then openScript (m := m) script verbose

def versionLine : Text := Text.line "scadkit v0.1.0".toList

/-- What a command does under the settings that it starts from. -/
def perform (command : Command) (verbose : Bool) (settings : Settings) :
    ExceptT Failure m Unit := do
  match command with
  | .render input output resolution clipboard editor =>
    render input output clipboard editor verbose
      { settings with resolution := resolution.getD settings.resolution }
  | .sample true =>
    Host.print (m := m) (Text.line ((Node.sample.print? Json.pretty).getD []))
  | .sample false => Files.printModel (m := m) .sample settings
  | .settings => Host.print (m := m) settings.toToml
  | .version => Host.print (m := m) versionLine

/-- Carries out an invocation. -/
def carryOut (invocation : Invocation) : ExceptT Failure m Unit := do
  perform invocation.command invocation.verbose (← settings invocation.settingsFile)

def usage : Text :=
  Text.line ("usage: scadkit [-c FILE] [-v] (render INPUT [-o FILE] [-r N] [--clipboard]".toList
    ++ " [--open] | demo [--json] | config | version)".toList)

/-- Runs the program on its arguments and returns its exit status: two if the arguments ask for
nothing that there is, one if the command ends badly, and zero otherwise. -/
def run (arguments : List Bytes) : m Nat := do
  match Arguments.parse? arguments with
  | none =>
    Host.report usage
    return 2
  | some invocation =>
    startLogger ["scadkit".toList] invocation.verbose
    match ← (carryOut invocation).run with
    | .ok () => return 0
    | .error failure =>
      Host.report (Report.error (← colors) failure.message)
      return 1

end SolidScript.CommandLine
