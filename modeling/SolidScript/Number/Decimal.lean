import SolidScript.Number.Binary64
import SolidScript.Text.Basic

/-!
# Decimal

Numbers in tens: a coefficient times a power of ten, the value nearest to it, and whole numbers as
digits.
-/

namespace SolidScript

/-- `coefficient * 10 ^ exponent`. -/
structure Decimal where
  coefficient : Nat
  exponent : Int
deriving DecidableEq, Repr, Inhabited

/-- The digits of a whole number, without leading zeros. -/
def digits (n : Nat) : Text := Nat.toDigits 10 n

/-- A whole number with its sign, if it is negative. -/
def signedDigits (i : Int) : Text :=
  if i < 0 then '-' :: digits i.natAbs else digits i.natAbs

/-- The value of a digit. -/
def digitValue (c : Char) : Nat := c.toNat - '0'.toNat

/-- The number that digits spell. Leading zeros count for nothing. -/
def ofDigits (ds : Text) : Nat := ds.foldl (fun n c => 10 * n + digitValue c) 0

namespace Decimal

/-- The number of digits of a coefficient. -/
def length (n : Nat) : Nat := (digits n).length

/-- The numerator of the decimal as a fraction. -/
def num (d : Decimal) : Nat := d.coefficient * Nat.pow 10 d.exponent.toNat

/-- The denominator of the decimal as a fraction, a power of ten. -/
def den (d : Decimal) : Nat := Nat.pow 10 (-d.exponent).toNat

/-- The value nearest to the decimal. A decimal past every value, or nearer to zero than to the
least, is settled by its size, so that no power of ten is computed that is not needed. A coefficient
of `n + 1` bits is at least `10 ^ (3 * n / 10)` and less than `10 ^ (n / 3 + 1)`. -/
def round (negative : Bool) (d : Decimal) : Binary64 :=
  let n := d.coefficient.log2
  if d.coefficient = 0 then .withSign negative 0
  else
    if 310 < d.exponent + (3 * n / 10 : Nat) then .withSign negative Binary64.infinityWord
    else if d.exponent + (n / 3 + 1 : Nat) < -330 then .withSign negative 0
    else .ofRatio negative d.num d.den

/-- Zeros at the end of the coefficient moved into the exponent, `fuel` of them at most. -/
def stripZeros : Nat → Decimal → Decimal
  | 0, d => d
  | fuel + 1, d =>
    if d.coefficient ≠ 0 ∧ d.coefficient % 10 = 0 then
      stripZeros fuel ⟨d.coefficient / 10, d.exponent + 1⟩
    else d

end Decimal

end SolidScript
