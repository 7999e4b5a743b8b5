import SolidScript.Number.Decimal

/-!
# Fixed

Numbers with two places after the point. The exact value is rounded, a tie going to the even
neighbour.
-/

namespace SolidScript.Binary64

/-- A count divided by a power of ten: the value nearest to the quotient of the nearest values. -/
def quotient (count divisor : Nat) : Binary64 :=
  ofRatio false (ofRatio false count 1).units (unitsPerOne * divisor)

/-- A finite magnitude with two places. -/
def twoPlaces (x : Binary64) : Text :=
  let hundredths := roundHalfEven (x.units * 100) (unitsPerOne)
  let places := digits (hundredths % 100)
  digits (hundredths / 100) ++ '.' :: (List.replicate (2 - places.length) '0' ++ places)

/-- 1005/1000 lies below its decimal, and 1125/1000 is a tie. -/
example : (quotient 1005 1000).twoPlaces = "1.00".toList
    ∧ (quotient 1125 1000).twoPlaces = "1.12".toList := by decide +kernel

end SolidScript.Binary64
