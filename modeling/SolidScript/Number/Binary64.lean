/-!
# Binary64

Coordinates are 64-bit words read as binary floating-point numbers. The word is all that is kept;
every operation here is exact arithmetic on natural numbers.

A finite value is a whole number of *units* of 2^-1074, the least positive value, so `units` is the
view through which values are compared and added. `ofRatio` is the other way: the word nearest to
a fraction, a tie going to the even word.
-/

namespace SolidScript

/-- A binary floating-point number as its word: sign, eleven bits of exponent, fifty-two of
fraction. So `0x8000000000000000` is the sign bit, and `0x10000000000000` the lowest bit of the
exponent. Two values are equal here if their words are; `eqv` compares them as numbers. -/
structure Binary64 where
  bits : UInt64
deriving DecidableEq, Hashable, Repr, Inhabited

namespace Binary64

/-- The word as a natural number. -/
def word (x : Binary64) : Nat := x.bits.toNat

/-- The value with the given word. -/
def ofWord (n : Nat) : Binary64 := ⟨UInt64.ofNat n⟩

/-- The sign bit is set. Zeros and NaNs have a sign too. -/
def isNegative (x : Binary64) : Bool := 0x8000000000000000 ≤ x.word

def exponentField (x : Binary64) : Nat := x.word / 0x10000000000000 % 0x800

def fraction (x : Binary64) : Nat := x.word % 0x10000000000000

def isNaN (x : Binary64) : Bool := x.exponentField = 2047 && x.fraction ≠ 0

def isInfinite (x : Binary64) : Bool := x.exponentField = 2047 && x.fraction = 0

def isFinite (x : Binary64) : Bool := x.exponentField ≠ 2047

/-- Either zero. -/
def isZero (x : Binary64) : Bool := x.word % 0x8000000000000000 = 0

/-- The magnitude of a finite value, counted in units of 2^-1074. -/
def units (x : Binary64) : Nat :=
  if x.exponentField = 0 then x.fraction
  else (0x10000000000000 + x.fraction) * Nat.pow 2 (x.exponentField - 1)

/-- The number of units in one. -/
@[irreducible] def unitsPerOne : Nat := Nat.pow 2 1074

def zero : Binary64 := ⟨0⟩

/-- The least word of no finite value, which is positive infinity. -/
def infinityWord : Nat := 0x7FF0000000000000

/-- The sign bit put on a magnitude. -/
def withSign (negative : Bool) (magnitude : Nat) : Binary64 :=
  ofWord (if negative then 0x8000000000000000 + magnitude else magnitude)

/-- Equality of numbers: both zeros are one number, and a NaN equals nothing. -/
def eqv (x y : Binary64) : Bool :=
  !x.isNaN && !y.isNaN && (x == y || (x.isZero && y.isZero))

/-- The word with both zeros taken to one: what tells two coordinates apart. NaNs differ by their
words. -/
def key (x : Binary64) : UInt64 := if x.isZero then 0 else x.bits

/-! ## Rounding to nearest -/

/-- The whole number nearest to `num / den`, a tie going to the even one. -/
def roundHalfEven (num den : Nat) : Nat :=
  let q := num / den
  let r := num % den
  if 2 * r < den then q
  else if den < 2 * r then q + 1
  else if q % 2 = 0 then q else q + 1

/-- The word of the magnitude nearest to `num / den`. A significand has fifty-three bits, so a
value of more bits than that in units is rounded to a multiple of a power of two. A rounding up to
the next power of two carries into the exponent by itself. From `infinityWord` on, the value is too
large. -/
def magnitudeOfRatio (num den : Nat) : Nat :=
  let scaled := num * unitsPerOne
  let shift := (scaled / den).log2 - 52
  shift * 0x10000000000000 + roundHalfEven scaled (den * Nat.pow 2 shift)

/-- The value nearest to a fraction, and infinity for a fraction too large. -/
def ofRatio (negative : Bool) (num den : Nat) : Binary64 :=
  withSign negative (min infinityWord (magnitudeOfRatio num den))

/-! ## Addition -/

/-- The exact value of a finite number, in units of 2^-1074. -/
def toUnits (x : Binary64) : Int := if x.isNegative then -(x.units : Int) else x.units

def nan : Binary64 := ofWord 0x7FF8000000000000

/-- The sum, rounded to nearest. A sum of exactly zero is positive unless both terms are negative
zeros. -/
protected def add (x y : Binary64) : Binary64 :=
  if x.isNaN then x
  else if y.isNaN then y
  else if x.isInfinite then
    if y.isInfinite && x.isNegative != y.isNegative then nan else x
  else if y.isInfinite then y
  else
    let sum := x.toUnits + y.toUnits
    if sum = 0 then withSign (x.isNegative && y.isNegative) 0
    else ofRatio (sum < 0) sum.natAbs unitsPerOne

instance : Add Binary64 := ⟨Binary64.add⟩

end Binary64

end SolidScript
