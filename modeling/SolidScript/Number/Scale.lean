import SolidScript.Number.Decimal

/-!
# Scale

How documents turn a decimal into a value. The coefficient becomes a value, and this is multiplied
or divided by a power of ten. Each of these steps rounds to nearest, the power of ten as well, so
what comes out can lie next to the value that `Decimal.round` finds. In return nothing but values
is computed with.
-/

namespace SolidScript

namespace Binary64

/-- The product of two finite values. -/
def times (x y : Binary64) : Binary64 :=
  ofRatio (x.isNegative != y.isNegative) (x.units * y.units) (unitsPerOne * unitsPerOne)

/-- The quotient of two finite values. The second is not zero. -/
def dividedBy (x y : Binary64) : Binary64 :=
  ofRatio (x.isNegative != y.isNegative) x.units y.units

/-- A power of ten. It is finite up to `greatestPower`. -/
def powerOfTen (k : Nat) : Binary64 := ofRatio false (Nat.pow 10 k) 1

def greatestPower : Nat := 308

/-- The value divided by the greatest power of ten, a number of times. A zero stays as it is. -/
def lower : Nat → Binary64 → Binary64
  | 0, x => x
  | times + 1, x => if x.isZero then x else lower times (x.dividedBy (powerOfTen greatestPower))

end Binary64

namespace Decimal

open Binary64 (powerOfTen greatestPower)

/-- The value of a decimal whose coefficient has 64 bits, if it is not too great. Powers of ten past
the greatest one leave only zero where they multiply, and where they divide it is done in steps. -/
def scale? (negative : Bool) (d : Decimal) : Option Binary64 :=
  let x : Binary64 := .ofRatio negative d.coefficient 1
  if 0 ≤ d.exponent then
    if d.exponent ≤ greatestPower then
      let y := x.times (powerOfTen d.exponent.toNat)
      if y.isInfinite then none else some y
    else if x.isZero then some x else none
  else
    let k := (-d.exponent).toNat - 1
    some ((x.lower (k / greatestPower)).dividedBy (powerOfTen (k % greatestPower + 1)))

end Decimal

end SolidScript
