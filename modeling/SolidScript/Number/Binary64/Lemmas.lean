import Mathlib.Algebra.Group.Nat.Defs
import SolidScript.Number.Binary64

/-!
# Rounding to nearest, its laws

Rounding depends on a fraction alone, not on how it is written (`magnitudeOfRatio_mul_right`); it
keeps every finite value (`ofRatio_units`), takes great fractions to infinity
(`infinityWord_le_magnitudeOfRatio`) and small ones to zero (`magnitudeOfRatio_eq_zero`).
-/

namespace SolidScript.Binary64

theorem word_lt (x : Binary64) : x.word < 2 ^ 64 := x.bits.toNat_lt

theorem ofWord_word (x : Binary64) : ofWord x.word = x := by simp [ofWord, word]

theorem fraction_lt (x : Binary64) : x.fraction < 2 ^ 52 := Nat.mod_lt _ (by decide)

theorem exponentField_lt (x : Binary64) : x.exponentField < 2 ^ 11 := Nat.mod_lt _ (by decide)

/-- The word without its sign is the exponent followed by the fraction. -/
theorem magnitude_eq (x : Binary64) :
    x.word % 2 ^ 63 = x.exponentField * 2 ^ 52 + x.fraction := by
  simp only [exponentField, fraction]
  omega

/-- A value is its sign and its magnitude. -/
theorem withSign_magnitude (x : Binary64) : withSign x.isNegative (x.word % 2 ^ 63) = x := by
  have h := x.word_lt
  have : (if x.isNegative then 0x8000000000000000 + x.word % 2 ^ 63 else x.word % 2 ^ 63)
      = x.word := by
    simp only [isNegative, decide_eq_true_eq]
    split <;> omega
  rw [withSign, this, ofWord_word]

theorem isNaN_eq_false {x : Binary64} (h : x.isFinite = true) : x.isNaN = false := by
  rw [isFinite, decide_eq_true_eq] at h
  simp [isNaN, h]

theorem isInfinite_eq_false {x : Binary64} (h : x.isFinite = true) : x.isInfinite = false := by
  rw [isFinite, decide_eq_true_eq] at h
  simp [isInfinite, h]

/-! ## Units -/

theorem units_eq (x : Binary64) : x.units = if x.exponentField = 0 then x.fraction
    else (2 ^ 52 + x.fraction) * 2 ^ (x.exponentField - 1) := rfl

theorem magnitudeOfRatio_eq (num den : Nat) : magnitudeOfRatio num den
    = ((num * unitsPerOne / den).log2 - 52) * 2 ^ 52 + roundHalfEven (num * unitsPerOne)
      (den * 2 ^ ((num * unitsPerOne / den).log2 - 52)) := rfl

/-- One is a power of two in units. The exponent is a name, so nothing computes the power. -/
theorem exists_unitsPerOne_eq : ∃ bits, bits = 1074 ∧ unitsPerOne = 2 ^ bits :=
  ⟨1074, rfl, by decide +kernel⟩

theorem unitsPerOne_pos : 0 < unitsPerOne := by
  obtain ⟨bits, -, hone⟩ := exists_unitsPerOne_eq
  rw [hone]
  exact Nat.two_pow_pos bits

/-- A significand with its leading bit, moved to the left. -/
theorem log2_significand {f : Nat} (h : f < 2 ^ 52) (e : Nat) :
    ((2 ^ 52 + f) * 2 ^ e).log2 = 52 + e := by
  have hpos : 0 < 2 ^ e := Nat.pow_pos (by decide)
  rw [Nat.log2_eq_iff (Nat.mul_ne_zero (by omega) (by omega))]
  constructor
  · rw [Nat.pow_add]
    exact Nat.mul_le_mul_right _ (by omega)
  · rw [Nat.add_right_comm, Nat.pow_add]
    exact Nat.mul_lt_mul_of_pos_right (by omega) hpos

/-! ## Whole numbers -/

theorem roundHalfEven_mul {q den : Nat} (h : 0 < den) : roundHalfEven (q * den) den = q := by
  simp [roundHalfEven, Nat.mul_div_cancel _ h, h]

theorem roundHalfEven_mul_right (num den : Nat) {k : Nat} (hk : 0 < k) :
    roundHalfEven (num * k) (den * k) = roundHalfEven num den := by
  have hlt (a b : Nat) : 2 * (a * k) < b * k ↔ 2 * a < b := by
    rw [← Nat.mul_assoc]
    exact Nat.mul_lt_mul_right hk
  have hgt (a b : Nat) : b * k < 2 * (a * k) ↔ b < 2 * a := by
    rw [← Nat.mul_assoc]
    exact Nat.mul_lt_mul_right hk
  simp only [roundHalfEven, Nat.mul_div_mul_right _ _ hk, Nat.mul_mod_mul_right, hlt, hgt]

theorem div_le_roundHalfEven (num den : Nat) : num / den ≤ roundHalfEven num den := by
  simp only [roundHalfEven]
  repeat' split
  all_goals omega

/-! ## Values -/

/-- A fraction is rounded alike however it is written. -/
theorem magnitudeOfRatio_mul_right (num den : Nat) {k : Nat} (hk : 0 < k) :
    magnitudeOfRatio (num * k) (den * k) = magnitudeOfRatio num den := by
  have hscaled : num * k * unitsPerOne = num * unitsPerOne * k := Nat.mul_right_comm ..
  simp only [magnitudeOfRatio_eq, hscaled, Nat.mul_div_mul_right _ _ hk]
  rw [Nat.mul_right_comm den k, roundHalfEven_mul_right _ _ hk]

/-- A number of units that a word stands for is rounded to that word. -/
theorem magnitudeOfRatio_units (x : Binary64) {k : Nat} (hk : 0 < k) :
    magnitudeOfRatio (x.units * k) (unitsPerOne * k) = x.word % 2 ^ 63 := by
  have hden : 0 < unitsPerOne * k := Nat.mul_pos unitsPerOne_pos hk
  have hscaled : x.units * k * unitsPerOne = x.units * (unitsPerOne * k) := by
    rw [Nat.mul_assoc, Nat.mul_comm k]
  have hf := x.fraction_lt
  simp only [magnitudeOfRatio_eq, hscaled, Nat.mul_div_cancel _ hden, magnitude_eq]
  by_cases he : x.exponentField = 0
  · have hlog : x.fraction.log2 - 52 = 0 := by
      by_cases h0 : x.fraction = 0
      · simp [h0]
      · have := (Nat.log2_lt h0).2 hf
        omega
    simp only [units_eq, he, if_true, hlog, Nat.pow_zero, Nat.mul_one, Nat.zero_mul, Nat.zero_add]
    exact roundHalfEven_mul hden
  · have hs : 52 + (x.exponentField - 1) - 52 = x.exponentField - 1 := by omega
    simp only [units_eq, he, if_false, log2_significand hf, hs]
    rw [Nat.mul_assoc, Nat.mul_comm (2 ^ _), roundHalfEven_mul
      (Nat.mul_pos hden (Nat.pow_pos (by decide)))]
    omega

/-- A finite value is the value nearest to itself. -/
theorem ofRatio_units {x : Binary64} (h : x.isFinite = true) {k : Nat} (hk : 0 < k) :
    ofRatio x.isNegative (x.units * k) (unitsPerOne * k) = x := by
  have hle : x.word % 2 ^ 63 ≤ infinityWord := by
    have hf := x.fraction_lt
    have he := x.exponentField_lt
    simp only [isFinite, decide_eq_true_eq] at h
    rw [magnitude_eq, infinityWord]
    omega
  rw [ofRatio, magnitudeOfRatio_units x hk, Nat.min_eq_right hle, withSign_magnitude]

/-- The number of units in 2^1024, which no finite value reaches. -/
@[irreducible] def unitLimit : Nat := 2 ^ 2098

theorem log2_unitLimit : unitLimit.log2 = 2098 := by decide +kernel

theorem unitLimit_ne_zero : unitLimit ≠ 0 := by
  intro hzero
  have hlog := log2_unitLimit
  rw [hzero, Nat.log2_zero] at hlog
  cases hlog

/-- A fraction that comes to `unitLimit` is past every finite value. -/
theorem infinityWord_le_magnitudeOfRatio {num den : Nat} (hden : 0 < den)
    (h : unitLimit * den ≤ num * unitsPerOne) : infinityWord ≤ magnitudeOfRatio num den := by
  have hq : unitLimit ≤ num * unitsPerOne / den := (Nat.le_div_iff_mul_le hden).2 h
  have hne : num * unitsPerOne / den ≠ 0 := by
    have := unitLimit_ne_zero
    omega
  have hlog : 2098 ≤ (num * unitsPerOne / den).log2 := by
    rw [Nat.le_log2 hne, ← log2_unitLimit]
    exact Nat.le_trans (Nat.log2_self_le unitLimit_ne_zero) hq
  have hsig : 2 ^ 52
      ≤ num * unitsPerOne / den / 2 ^ ((num * unitsPerOne / den).log2 - 52) := by
    rw [Nat.le_div_iff_mul_le (Nat.pow_pos (by decide)), ← Nat.pow_add]
    exact Nat.le_trans (Nat.pow_le_pow_right (by decide) (by omega)) (Nat.log2_self_le hne)
  have hround := div_le_roundHalfEven (num * unitsPerOne)
    (den * 2 ^ ((num * unitsPerOne / den).log2 - 52))
  rw [← Nat.div_div_eq_div_mul] at hround
  simp only [magnitudeOfRatio_eq, infinityWord]
  omega

/-- A fraction of less than half a unit is nearest to zero. -/
theorem magnitudeOfRatio_eq_zero {num den : Nat} (h : 2 * (num * unitsPerOne) < den) :
    magnitudeOfRatio num den = 0 := by
  have hq : num * unitsPerOne / den = 0 := Nat.div_eq_of_lt (by omega)
  have hmod : num * unitsPerOne % den = num * unitsPerOne := Nat.mod_eq_of_lt (by omega)
  simp [magnitudeOfRatio_eq, roundHalfEven, hq, hmod, h]

end SolidScript.Binary64
