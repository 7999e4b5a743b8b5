import SolidScript.Number.Whole
import SolidScript.Settings
import SolidScript.Text.Blank
import SolidScript.Text.Utf8

/-!
# Settings from the environment

Two variables override what a file says. A variable whose bytes are no text counts as absent, and
a text that is no number of thirty-two bits is a fault. The resolution is looked at first; where
the second variable is at fault, the first one's change stays.
-/

namespace SolidScript

/-- A variable that holds something other than a number. -/
structure BadVariable where
  name : Text
  value : Text
deriving DecidableEq, Repr

/-- The variables of a process: the bytes of each that is present. -/
abbrev Environment := Text → Option Bytes

namespace Settings

def resolutionVariable : Text := "SCADKIT_RESOLUTION".toList

def convexityVariable : Text := "SCADKIT_IMPORT_CONVEXITY".toList

/-- The number in a variable, if it is present. Blanks around the number count for nothing. -/
def number? (name : Text) (value : Option Bytes) : Except BadVariable (Option UInt32) :=
  match value.bind Utf8.decode? with
  | none => .ok none
  | some text =>
    match Whole.word32? text.trim with
    | none => .error ⟨name, text⟩
    | some n => .ok (some n)

/-- The settings after the variables have been looked at, and the first fault among these. -/
def override (s : Settings) (environment : Environment) : Settings × Option BadVariable :=
  match number? resolutionVariable (environment resolutionVariable) with
  | .error bad => (s, some bad)
  | .ok resolution =>
    let s := { s with resolution := resolution.getD s.resolution }
    match number? convexityVariable (environment convexityVariable) with
    | .error bad => (s, some bad)
    | .ok none => (s, none)
    | .ok (some n) => ({ s with meshConvexity := some n }, none)

end Settings

end SolidScript
