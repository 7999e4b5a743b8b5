import SolidScript.Number.Style
import SolidScript.Text.Hex

/-!
# Json

Values of the exchange format, and their texts. A `Layout` says what stands between the parts of a
text: nothing, or line feeds and blanks that show the nesting. What a layout adds is blank, so both
texts of a value hold the same tokens.
-/

namespace SolidScript

inductive Json where
  | null
  | bool (value : Bool)
  /-- A number. One that is not finite has no text of its own and is written as `null`. -/
  | number (value : Binary64)
  | string (value : Text)
  | array (items : List Json)
  | object (fields : List (Text × Json))
deriving Inhabited, Repr

namespace Json

/-- What stands between the parts of a text. -/
structure Layout where
  /-- What stands before an item and before the closing bracket, by the number of open brackets. -/
  gap : Nat → Text
  /-- What stands between a key and its value. -/
  colon : Text

/-- Everything on one line. -/
def compact : Layout where
  gap _ := []
  colon := [':']

/-- Every item on a line of its own, two blanks to the right for each open bracket. -/
def pretty : Layout where
  gap depth := '\n' :: List.replicate (2 * depth) ' '
  colon := [':', ' ']

/-- How one character is written in a string. Only quotes, backslashes and control characters are
escaped. -/
def escapeChar (c : Char) : Text :=
  match c with
  | '"' => ['\\', '"']
  | '\\' => ['\\', '\\']
  | '\x08' => ['\\', 'b']
  | '\x0c' => ['\\', 'f']
  | '\n' => ['\\', 'n']
  | '\r' => ['\\', 'r']
  | '\t' => ['\\', 't']
  | c =>
    if c.toNat < 0x20 then ['\\', 'u', '0', '0', Hex.digit (c.toNat / 16), Hex.digit (c.toNat % 16)]
    else [c]

/-- A string between its quotes. -/
def quote (t : Text) : Text := '"' :: t.flatMap escapeChar ++ ['"']

def printNumber (x : Binary64) : Text :=
  if x.isFinite then Style.document.write x else "null".toList

/-- Items between two brackets, one more bracket being open around them than around the whole. -/
def bracketed (layout : Layout) (depth : Nat) (left right : Char) : List Text → Text
  | [] => [left, right]
  | items =>
    left :: layout.gap (depth + 1)
      ++ List.intercalate (',' :: layout.gap (depth + 1)) items
      ++ layout.gap depth ++ [right]

mutual

/-- The text of a value that stands inside `depth` open brackets. -/
def printAt (layout : Layout) (depth : Nat) : Json → Text
  | .null => "null".toList
  | .bool b => if b then "true".toList else "false".toList
  | .number x => printNumber x
  | .string t => quote t
  | .array items => bracketed layout depth '[' ']' (printItems layout (depth + 1) items)
  | .object fields => bracketed layout depth '\x7b' '\x7d' (printFields layout (depth + 1) fields)

/-- The texts of the items of an array. -/
def printItems (layout : Layout) (depth : Nat) : List Json → List Text
  | [] => []
  | j :: js => j.printAt layout depth :: printItems layout depth js

/-- The texts of the fields of an object. -/
def printFields (layout : Layout) (depth : Nat) : List (Text × Json) → List Text
  | [] => []
  | (key, j) :: fs =>
    (quote key ++ layout.colon ++ j.printAt layout depth) :: printFields layout depth fs

end

/-- The text of a value. -/
def print (layout : Layout) (j : Json) : Text := j.printAt layout 0

end Json

end SolidScript
