import SolidScript.Number.Binary64.Lemmas
import SolidScript.Number.Decimal

/-!
# Decimals, their laws

Settling a decimal by its size gives what rounding it would give (`round_eq_ofRatio`), so decimals
of one value are rounded alike, however they are written (`round_eq_of_same`).
-/

namespace SolidScript.Decimal

open Binary64 (unitsPerOne unitLimit)

theorem num_eq (d : Decimal) : d.num = d.coefficient * 10 ^ d.exponent.toNat := rfl

theorem den_eq (d : Decimal) : d.den = 10 ^ (-d.exponent).toNat := rfl

theorem unitLimit_le {k : Nat} (hk : 311 ≤ k) : unitLimit ≤ 10 ^ k * unitsPerOne := by
  induction hk with
  | refl => decide +kernel
  | step _ ih =>
    exact Nat.le_trans ih (Nat.mul_le_mul_right _ (Nat.pow_le_pow_right (by decide) (by omega)))

theorem two_unitsPerOne_le {k : Nat} (hk : 331 ≤ k) : 2 * unitsPerOne ≤ 10 ^ k := by
  induction hk with
  | refl => decide +kernel
  | step _ ih => exact Nat.le_trans ih (Nat.pow_le_pow_right (by decide) (by omega))

/-- Ten bits are three digits at least. -/
theorem pow_ten_le_of_log2 {c : Nat} (hc : c ≠ 0) : 10 ^ (3 * c.log2 / 10) ≤ c := by
  refine Nat.le_trans ?_ (Nat.log2_self_le hc)
  generalize c.log2 = n
  have : (10 ^ (3 * n / 10)) ^ 10 ≤ (2 ^ n) ^ 10 := by
    calc (10 ^ (3 * n / 10)) ^ 10 = 10 ^ (3 * n / 10 * 10) := (Nat.pow_mul ..).symm
      _ ≤ 10 ^ (3 * n) := Nat.pow_le_pow_right (by decide) (by omega)
      _ = 1000 ^ n := by rw [Nat.pow_mul]
      _ ≤ 1024 ^ n := Nat.pow_le_pow_left (by decide) n
      _ = (2 ^ n) ^ 10 := by rw [← Nat.pow_mul, Nat.mul_comm, Nat.pow_mul]
  exact (Nat.pow_le_pow_iff_left (by decide)).1 this

/-- Three bits are one digit at most. -/
theorem lt_pow_ten_of_log2 (c : Nat) : c < 10 ^ (c.log2 / 3 + 1) := by
  refine Nat.lt_of_lt_of_le Nat.lt_log2_self ?_
  generalize c.log2 = n
  calc 2 ^ (n + 1) ≤ 2 ^ (3 * (n / 3 + 1)) := Nat.pow_le_pow_right (by decide) (by omega)
    _ = 8 ^ (n / 3 + 1) := by rw [Nat.pow_mul]
    _ ≤ 10 ^ (n / 3 + 1) := Nat.pow_le_pow_left (by decide) _

theorem unitLimit_mul_le {c : Nat} (hc : c ≠ 0) {e : Int} (h : 310 < e + (3 * c.log2 / 10 : Nat)) :
    unitLimit * 10 ^ (-e).toNat ≤ c * 10 ^ e.toNat * unitsPerOne := by
  obtain ⟨k, hk⟩ : ∃ k, 3 * c.log2 / 10 + e.toNat = k + (-e).toNat :=
    ⟨3 * c.log2 / 10 + e.toNat - (-e).toNat, by omega⟩
  calc unitLimit * 10 ^ (-e).toNat
      ≤ 10 ^ k * unitsPerOne * 10 ^ (-e).toNat :=
        Nat.mul_le_mul_right _ (unitLimit_le (by omega))
    _ = 10 ^ (3 * c.log2 / 10) * 10 ^ e.toNat * unitsPerOne := by
        rw [Nat.mul_right_comm, ← Nat.pow_add, ← hk, Nat.pow_add]
    _ ≤ c * 10 ^ e.toNat * unitsPerOne :=
        Nat.mul_le_mul_right _ (Nat.mul_le_mul_right _ (pow_ten_le_of_log2 hc))

theorem two_mul_units_lt {c : Nat} {e : Int} (h : e + (c.log2 / 3 + 1 : Nat) < -330) :
    2 * (c * 10 ^ e.toNat * unitsPerOne) < 10 ^ (-e).toNat := by
  obtain ⟨k, hk⟩ : ∃ k, (-e).toNat = c.log2 / 3 + 1 + k :=
    ⟨(-e).toNat - (c.log2 / 3 + 1), by omega⟩
  have he : e.toNat = 0 := by omega
  calc 2 * (c * 10 ^ e.toNat * unitsPerOne) = c * (2 * unitsPerOne) := by
        rw [he, Nat.pow_zero, Nat.mul_one, Nat.mul_left_comm]
    _ < 10 ^ (c.log2 / 3 + 1) * (2 * unitsPerOne) :=
        Nat.mul_lt_mul_of_pos_right (lt_pow_ten_of_log2 c)
          (Nat.mul_pos (by decide) Binary64.unitsPerOne_pos)
    _ ≤ 10 ^ (c.log2 / 3 + 1) * 10 ^ k := Nat.mul_le_mul_left _ (two_unitsPerOne_le (by omega))
    _ = 10 ^ (-e).toNat := by rw [hk, ← Nat.pow_add]

/-- What is settled by its size is settled as rounding would settle it. -/
theorem round_eq_ofRatio (negative : Bool) (d : Decimal) :
    d.round negative = .ofRatio negative d.num d.den := by
  obtain ⟨c, e⟩ := d
  simp only [round, num_eq, den_eq]
  split
  next h0 =>
    simp [h0, Binary64.ofRatio, Binary64.magnitudeOfRatio_eq, Binary64.roundHalfEven]
  next h0 =>
    split
    next h =>
      rw [Binary64.ofRatio, Nat.min_eq_left (Binary64.infinityWord_le_magnitudeOfRatio
        (Nat.pow_pos (by decide)) (unitLimit_mul_le h0 h))]
    next =>
      split
      next h =>
        rw [Binary64.ofRatio, Binary64.magnitudeOfRatio_eq_zero (two_mul_units_lt h)]
        rfl
      next => rfl

/-- Decimals of one value are rounded alike. -/
theorem round_eq_of_same (negative : Bool) {d e : Decimal} (h : d.num * e.den = e.num * d.den) :
    d.round negative = e.round negative := by
  have hd : 0 < d.den := Nat.pow_pos (by decide)
  have he : 0 < e.den := Nat.pow_pos (by decide)
  simp only [round_eq_ofRatio, Binary64.ofRatio]
  rw [← Binary64.magnitudeOfRatio_mul_right d.num d.den he,
    ← Binary64.magnitudeOfRatio_mul_right e.num e.den hd, h, Nat.mul_comm d.den]

end SolidScript.Decimal
