import SolidScript.Number.Decimal

/-!
# Shortest

The decimal with the fewest digits that reads back as a given value. Grids of one digit, two
digits and so on are tried in turn; on each the two neighbours of the value are tested, and the
first grid with a neighbour that reads back wins. Of two such neighbours the nearer is taken, and
a tie is settled by the format that asks.

What a grid yields reads back because that is the test (`readsBack_of_onGrid?`).
-/

namespace SolidScript

/-- How a tie between two equally near decimals is settled. -/
inductive Tie where
  | toEven
  | awayFromZero
deriving DecidableEq, Repr

namespace Binary64

/-- The decimal is read as this magnitude. -/
def readsBack (x : Binary64) (d : Decimal) : Bool := d.round x.isNegative = x

/-- A value of `n` units is below `10 ^ k`. -/
def isBelow (n : Nat) (k : Int) : Bool :=
  n * Nat.pow 10 (-k).toNat < unitsPerOne * Nat.pow 10 k.toNat

/-- The number of places before the point of a value of `n` units, and less than one for a value
below a tenth: the least `k` with the value below `10 ^ k`. The bits of `n` tell it up to one. -/
def scale (n : Nat) : Int :=
  let k := ((n.log2 : Int) - 1074) * 30103 / 100000 + 1
  if isBelow n k then k else k + 1

/-- The nearest neighbour of the value on the grid of multiples of `10 ^ e` that reads back. -/
def onGrid? (tie : Tie) (x : Binary64) (e : Int) : Option Decimal :=
  let num := x.units * Nat.pow 10 (-e).toNat
  let den := unitsPerOne * Nat.pow 10 e.toNat
  let below : Decimal := ⟨num / den, e⟩
  let above : Decimal := ⟨num / den + 1, e⟩
  let nearer :=
    match compare (2 * (num % den)) den, tie with
    | .lt, _ => below
    | .gt, _ => above
    | .eq, .awayFromZero => above
    | .eq, .toEven => if below.coefficient % 2 = 0 then below else above
  [nearer, below, above].find? x.readsBack

theorem readsBack_of_onGrid? {tie : Tie} {x : Binary64} {e : Int} {d : Decimal}
    (h : onGrid? tie x e = some d) : x.readsBack d = true :=
  List.find?_some h

/-- What a unit is in tens: `fives * 10 ^ -1074`. -/
@[irreducible] def fives : Nat := Nat.pow 5 1074

/-- The value itself, written out in tens. -/
def exact (x : Binary64) : Decimal := ⟨x.units * fives, -1074⟩

/-- The shortest decimal that reads back as a finite value other than zero. Seventeen digits are
always enough; past them stands the exact value. -/
def shortest (tie : Tie) (x : Binary64) : Decimal :=
  let k := scale x.units
  ((List.range 17).findSome? fun n => onGrid? tie x (k - (n + 1 : Nat))).getD x.exact

end Binary64

end SolidScript
