import SolidScript.Text.Basic

/-!
# Blank

The characters that count as empty space around a value: those of the property White_Space.
-/

namespace SolidScript.Text

/-- The ranges of blank code points, both ends included, in ascending order. -/
def blankRanges : List (Nat × Nat) :=
  [(0x9, 0xD), (0x20, 0x20), (0x85, 0x85), (0xA0, 0xA0), (0x1680, 0x1680), (0x2000, 0x200A),
    (0x2028, 0x2029), (0x202F, 0x202F), (0x205F, 0x205F), (0x3000, 0x3000)]

/-- The ranges are in order, and no two of them meet. -/
example : (blankRanges.zip blankRanges.tail).all
    (fun (r, s) => r.1 ≤ r.2 && r.2 + 1 < s.1) = true := by decide +kernel

def isBlank (c : Char) : Bool :=
  blankRanges.any fun (first, last) => first ≤ c.toNat && c.toNat ≤ last

/-- What follows the blanks at the start of a text. -/
def trimStart (t : Text) : Text := t.dropWhile isBlank

/-- What stands before the blanks at the end of a text. -/
def trimEnd (t : Text) : Text := (trimStart t.reverse).reverse

/-- A text without the blanks at both its ends. -/
def trim (t : Text) : Text := trimEnd (trimStart t)

end SolidScript.Text
