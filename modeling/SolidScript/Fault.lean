import SolidScript.ExitStatus
import SolidScript.Json.Lexeme
import SolidScript.OsError
import SolidScript.Path
import SolidScript.Settings.Environment

/-!
# Faults

Why a model is not loaded or saved, why settings are not found, and why a script is not handed on.
Building and rendering have no faults. The wording of each is in `Fault.message`.
-/

namespace SolidScript

inductive Fault where
  /-- A file could not be read or written. -/
  | access (file : Path) (cause : OsError)
  /-- A text is no model. -/
  | document (cause : ReadError)
  /-- A model names a mesh file whose path is no text. -/
  | unwritable
  /-- A file holds no settings. -/
  | settingsFile (file : Path) (cause : ReadError)
  | badVariable (bad : BadVariable)
  /-- None of the clipboard tools is there. -/
  | noClipboard
  /-- A program could not be started or did not take what it was given. -/
  | launch (program : Text) (cause : OsError)
  /-- A program came to a bad end. -/
  | exit (program : Text) (status : ExitStatus)
deriving DecidableEq, Repr

/-- What is wrong with a text, for formats that write numbers in the given style. -/
def ReadError.message (style : Style) : ReadError → Text
  | .malformed => "the text breaks the rules of its format".toList
  | .truncated => "the text ends too early".toList
  | .misfit cause => cause.message style

namespace Fault

def unwritablePath : Text := "path contains invalid UTF-8 characters".toList

/-- What a fault comes from, where that has words of its own. -/
def cause? : Fault → Option Text
  | .access _ cause => some cause.message
  | .document cause => some (cause.message .document)
  | .unwritable => some unwritablePath
  | .settingsFile _ cause => some (cause.message .message)
  | .launch _ cause => some cause.message
  | .badVariable _ | .noClipboard | .exit _ _ => none

def message : Fault → Text
  | .access file cause => "failed to access ".toList ++ file.display ++ ": ".toList ++ cause.message
  | .document cause => "invalid node tree: ".toList ++ cause.message .document
  | .unwritable => "invalid node tree: ".toList ++ unwritablePath
  | .settingsFile file cause =>
    "failed to parse config file ".toList ++ file.display ++ ": ".toList ++ cause.message .message
  | .badVariable bad =>
    "environment variable ".toList ++ bad.name ++ " has invalid value ".toList ++ bad.value.marked
  | .noClipboard =>
    "no clipboard tool found (tried pbcopy, wl-copy, xclip, xsel, clip)".toList
  | .launch program cause => "failed to run ".toList ++ program ++ ": ".toList ++ cause.message
  | .exit program status => program ++ " exited with ".toList ++ status.message

/-- A fault with its cause behind it, the form in which the command line shows faults. -/
def chain (fault : Fault) : Text :=
  match fault.cause? with
  | none => fault.message
  | some cause => fault.message ++ ": ".toList ++ cause

end Fault

end SolidScript
