import SolidScript.Number.Shortest

/-!
# Style

Numbers as texts. The digits are the shortest that read back; a `Style` holds the decisions that
are left. There are three: scripts, documents, and messages about settings files.
-/

namespace SolidScript

/-- What a format decides about its numbers. -/
structure Style where
  /-- The powers of ten of the leading digit at which a number is written without an exponent. -/
  positional : Int → Bool
  /-- A whole number is written with `.0`. -/
  pointZero : Bool
  tie : Tie

namespace Style

/-- Scripts never use an exponent, and write whole numbers without a point. -/
def script : Style where
  positional _ := true
  pointZero := false
  tie := .awayFromZero

/-- Documents use an exponent below 10^-5 and from 10^16 on, and mark whole numbers by `.0`. -/
def document : Style where
  positional e := -5 ≤ e && e ≤ 15
  pointZero := true
  tie := .toEven

/-- Messages about settings files never use an exponent, and mark whole numbers by `.0`. -/
def message : Style where
  positional _ := true
  pointZero := true
  tie := .awayFromZero

def zeros (n : Nat) : Text := List.replicate n '0'

/-- Digits with the point before, inside or after them; `e` is the power of ten of the first. -/
def place (style : Style) (ds : Text) (e : Int) : Text :=
  if e < 0 then '0' :: '.' :: zeros (-e - 1).toNat ++ ds
  else if ds.length ≤ e.toNat + 1 then
    ds ++ zeros (e.toNat + 1 - ds.length) ++ if style.pointZero then ['.', '0'] else []
  else ds.take (e.toNat + 1) ++ '.' :: ds.drop (e.toNat + 1)

/-- One digit, the others behind a point, and the exponent with its sign. -/
def scientific (ds : Text) (e : Int) : Text :=
  ds.take 1 ++ (if ds.length ≤ 1 then [] else '.' :: ds.drop 1)
    ++ 'e' :: (if e < 0 then '-' else '+') :: digits e.natAbs

/-- A decimal without zeros at its end, laid out. -/
def layOut (style : Style) (d : Decimal) : Text :=
  let ds := digits d.coefficient
  let e := d.exponent + ds.length - 1
  if style.positional e then style.place ds e else scientific ds e

/-- The magnitude of a finite number. -/
def magnitude (style : Style) (x : Binary64) : Text :=
  if x.isZero then style.place ['0'] 0
  else
    let d := x.shortest style.tie
    style.layOut (d.stripZeros (Decimal.length d.coefficient))

/-- A number as a text. A NaN has no sign. -/
def write (style : Style) (x : Binary64) : Text :=
  if x.isNaN then ['N', 'a', 'N']
  else
    let body := if x.isInfinite then ['i', 'n', 'f'] else style.magnitude x
    if x.isNegative then '-' :: body else body

end Style

/-- A number as scripts show it. -/
def Binary64.toScript (x : Binary64) : Text := Style.script.write x

/-! The styles differ where a number is great, small or whole. -/

/-- A tenth. -/
example : Style.script.write ⟨0x3FB999999999999A⟩ = "0.1".toList := by decide +kernel

/-- Negative zero. -/
example : Style.script.write ⟨0x8000000000000000⟩ = "-0".toList
    ∧ Style.document.write ⟨0x8000000000000000⟩ = "-0.0".toList := by decide +kernel

/-- A thousand. -/
example : Style.script.write ⟨0x408F400000000000⟩ = "1000".toList
    ∧ Style.message.write ⟨0x408F400000000000⟩ = "1000.0".toList := by decide +kernel

/-- 10^15 and 10^16. -/
example : Style.document.write ⟨0x430C6BF526340000⟩ = "1000000000000000.0".toList
    ∧ Style.document.write ⟨0x4341C37937E08000⟩ = "1e+16".toList
    ∧ Style.script.write ⟨0x4341C37937E08000⟩ = "10000000000000000".toList := by
  decide +kernel

/-- 10^-5 and 10^-6. -/
example : Style.document.write ⟨0x3EE4F8B588E368F1⟩ = "0.00001".toList
    ∧ Style.document.write ⟨0x3EB0C6F7A0B5ED8D⟩ = "1e-6".toList
    ∧ Style.script.write ⟨0x3EB0C6F7A0B5ED8D⟩ = "0.000001".toList := by
  decide +kernel

/-- The least positive value. -/
example : Style.document.write ⟨1⟩ = "5e-324".toList := by decide +kernel

end SolidScript
