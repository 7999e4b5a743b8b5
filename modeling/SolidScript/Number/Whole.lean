import SolidScript.Number.Decimal

/-!
# Whole

Whole numbers as they are typed: a sign if one likes, and at least one digit. Zeros in front count
for nothing, and a number that does not fit is refused, never wrapped.
-/

namespace SolidScript.Whole

/-- The number that a text of digits alone spells. -/
def natural? (t : Text) : Option Nat :=
  if !t.isEmpty && t.all Char.isDigit then some (ofDigits t) else none

/-- A number of thirty-two bits, with or without a plus sign. -/
def word32? (t : Text) : Option UInt32 :=
  let magnitude :=
    match t with
    | '+' :: ds => natural? ds
    | ds => natural? ds
  match magnitude with
  | none => none
  | some n => if n < UInt32.size then some (UInt32.ofNat n) else none

/-- A number with a sign of its own, with a plus sign, or with none. -/
def integer? (t : Text) : Option Int :=
  match t with
  | '+' :: ds => (natural? ds).map fun n => (n : Int)
  | '-' :: ds => (natural? ds).map fun n => -(n : Int)
  | ds => (natural? ds).map fun n => (n : Int)

end SolidScript.Whole
