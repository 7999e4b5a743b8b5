import SolidScript.Number.Style
import SolidScript.Text.Shown

/-!
# Misfit

What is wrong with a document that is well formed and yet does not hold what it should. The wording
of each cause is in `Misfit.message`, and nowhere else.
-/

namespace SolidScript

/-- What was found in a place. -/
inductive Found where
  | null
  | boolean (value : Bool)
  | integer (value : Int)
  | float (value : Binary64)
  | string (value : Text)
  | sequence
  | map
  /-- A name alone, where content belongs to it. -/
  | bareVariant
deriving DecidableEq, Repr

inductive Misfit where
  | unknownVariant (name : Text) (known : List Text)
  | missingField (name : Text)
  | duplicateField (name : Text)
  | wrongType (found : Found) (expected : Text)
  | wrongValue (found : Found) (expected : Text)
  | wrongLength (length : Nat) (expected : Text)
deriving DecidableEq, Repr

/-- A word as messages mark it. -/
def Text.marked (t : Text) : Text := '\x60' :: t ++ ['\x60']

/-- What was found, in words. Formats differ in how they write numbers. -/
def Found.describe (style : Style) : Found → Text
  | .null => "null".toList
  | .boolean b => "boolean ".toList ++ Text.marked (if b then "true".toList else "false".toList)
  | .integer i => "integer ".toList ++ Text.marked (signedDigits i)
  | .float x => "floating point ".toList ++ Text.marked (style.write x)
  | .string t => "string ".toList ++ Text.shown t
  | .sequence => "sequence".toList
  | .map => "map".toList
  | .bareVariant => "unit variant".toList

/-- The message for a misfit. -/
def Misfit.message (style : Style) : Misfit → Text
  | .unknownVariant name known =>
    "unknown variant ".toList ++ Text.marked name ++ ", expected one of ".toList
      ++ Text.commas (known.map Text.marked)
  | .missingField name => "missing field ".toList ++ Text.marked name
  | .duplicateField name => "duplicate field ".toList ++ Text.marked name
  | .wrongType found expected =>
    "invalid type: ".toList ++ found.describe style ++ ", expected ".toList ++ expected
  | .wrongValue found expected =>
    "invalid value: ".toList ++ found.describe style ++ ", expected ".toList ++ expected
  | .wrongLength n expected =>
    "invalid length ".toList ++ digits n ++ ", expected ".toList ++ expected

end SolidScript
