import SolidScript.Number.Shortest.Lemmas
import SolidScript.Number.Style

/-!
# Decimals of one value

Zeros at the end of a coefficient can be moved into the exponent and back without a change of the
nearest value (`Decimal.round_shift`). So what a style writes for a finite number, which is its
shortest decimal without such zeros, still reads back (`Binary64.round_stripped`), and its
coefficient is zero for zeros only.
-/

namespace SolidScript

namespace Decimal

/-- `k` zeros at the end of the coefficient are `k` steps of the exponent. -/
theorem round_shift (negative : Bool) (c : Nat) (e : Int) (k : Nat) :
    round negative ⟨c * 10 ^ k, e⟩ = round negative ⟨c, e + k⟩ := by
  apply round_eq_of_same
  have hpow : k + e.toNat + (-(e + k)).toNat = (e + k).toNat + (-e).toNat := by omega
  calc c * 10 ^ k * 10 ^ e.toNat * 10 ^ (-(e + k)).toNat
      = c * 10 ^ (k + e.toNat + (-(e + k)).toNat) := by
        rw [Nat.pow_add, Nat.pow_add, Nat.mul_assoc c, Nat.mul_assoc c]
    _ = c * 10 ^ (e + k).toNat * 10 ^ (-e).toNat := by
        rw [hpow, Nat.pow_add, Nat.mul_assoc]

theorem round_stripZeros (negative : Bool) (fuel : Nat) (d : Decimal) :
    (d.stripZeros fuel).round negative = d.round negative := by
  induction fuel generalizing d with
  | zero => rfl
  | succ fuel ih =>
    rw [stripZeros]
    split
    next h =>
      have hshift := round_shift negative (d.coefficient / 10) d.exponent 1
      have hcoefficient : d.coefficient / 10 * 10 ^ 1 = d.coefficient := by omega
      rw [ih, ← Int.natCast_one, ← hshift, hcoefficient]
    next => rfl

/-- A coefficient that is zero is the zero of the sign. -/
theorem round_zero (negative : Bool) (e : Int) :
    round negative ⟨0, e⟩ = .withSign negative 0 := by
  simp [round]

end Decimal

namespace Binary64

theorem isZero_withSign_zero (negative : Bool) : (withSign negative 0).isZero = true := by
  cases negative <;> rfl

theorem withSign_of_isZero {x : Binary64} (h : x.isZero = true) :
    withSign x.isNegative 0 = x := by
  have hword : x.word % 2 ^ 63 = 0 := by simpa [isZero] using h
  rw [← hword, withSign_magnitude]

variable (tie : Tie) {x : Binary64}

/-- The decimal that a style writes for a finite number. -/
def stripped (x : Binary64) : Decimal :=
  (x.shortest tie).stripZeros (Decimal.length (x.shortest tie).coefficient)

/-- What is written for a finite number is read as that number. -/
theorem round_stripped (h : x.isFinite = true) : (x.stripped tie).round x.isNegative = x := by
  have hreads := readsBack_shortest tie h
  rw [readsBack, decide_eq_true_eq] at hreads
  rw [stripped, Decimal.round_stripZeros, hreads]

theorem coefficient_stripped_ne_zero (h : x.isFinite = true) (hzero : x.isZero = false) :
    (x.stripped tie).coefficient ≠ 0 := by
  intro hc
  have hround := round_stripped tie h
  have hd : x.stripped tie = ⟨0, (x.stripped tie).exponent⟩ := by rw [← hc]
  rw [hd, Decimal.round_zero] at hround
  rw [← hround, isZero_withSign_zero] at hzero
  cases hzero

end Binary64

end SolidScript
