import Mathlib.Tactic.Ring
import SolidScript.Proofs.Number.Digits
import SolidScript.Proofs.Number.Scale

/-!
# The size of decimals

A decimal from 10^311 on is past all values (`Decimal.isInfinite_round`). One that is nearest to a
value is not past them when it is scaled either, unless it comes close to the very greatest: each of
the two factors is at most one part in 2^53 too great, and that is made up for by the distance of
two or three values (`Decimal.exists_scale?_of_le`). As for a coefficient, its digits bound it from
both sides.
-/

namespace SolidScript

theorem ofDigits_lt_pow {ds : Text} (h : ∀ c ∈ ds, c.isDigit = true) :
    ofDigits ds < 10 ^ ds.length := by
  induction ds with
  | nil => decide
  | cons c ds ih =>
    rw [List.forall_mem_cons] at h
    have hdigit : ofDigits [c] ≤ 9 := by
      have hc := h.1
      simp only [Char.isDigit, Bool.and_eq_true, decide_eq_true_eq] at hc
      have hle : c.toNat ≤ 57 := UInt32.le_iff_toNat_le.mp hc.2
      show 10 * 0 + (c.toNat - 48) ≤ 9
      omega
    have hsplit := ofDigits_append [c] ds
    rw [List.singleton_append] at hsplit
    have hmul := Nat.mul_le_mul_right (10 ^ ds.length) hdigit
    have hrest := ih h.2
    rw [hsplit, List.length_cons, Nat.pow_succ]
    omega

/-- The first digit of a whole number is no zero, so it counts. -/
theorem pow_pred_length_le {n : Nat} (h : n ≠ 0) : 10 ^ ((digits n).length - 1) ≤ n := by
  refine Nat.le_of_not_lt fun hlt => ?_
  rcases Nat.eq_zero_or_pos ((digits n).length - 1) with hzero | hpos
  · rw [hzero] at hlt
    omega
  · have hle := (Nat.length_toDigits_le_iff (by decide) hpos).mpr hlt
    rw [digits] at hpos hle
    omega

namespace Binary64

/-! ## Errors of a factor -/

/-- What is nearest to a whole number is too great by one part in 2^53 at most. -/
theorem IsNearest.units_mul_le {x : Binary64} {negative : Bool} {n : Nat}
    (h : x.IsNearest negative n 1) : x.units * 2 ^ 53 ≤ n * unitsPerOne * (2 ^ 53 + 1) := by
  obtain ⟨hk, hshift⟩ := rounded_bounds n 1
  rw [units_eq_magnitudeUnits, (isNearestMagnitude_iff Nat.one_pos).mp h.nearest,
    magnitudeOfRatio_eq]
  rw [Nat.div_one] at hk hshift ⊢
  generalize n * unitsPerOne = scaled at hk hshift ⊢
  generalize scaled.log2 - 52 = shift at hk hshift ⊢
  rw [Nat.one_mul] at hk hshift ⊢
  rw [magnitudeUnits_shift hk (hshift.imp_right And.left)]
  rcases hshift with rfl | ⟨-, hle⟩
  · have hexact : roundHalfEven scaled (2 ^ 0) = scaled := by
      have hmul := roundHalfEven_mul (q := scaled) Nat.one_pos
      rwa [Nat.mul_one] at hmul
    rw [hexact]
    omega
  · -- rounding adds half of what a bit is worth at most, and there are fifty-two bits above it
    have hdiv := Nat.div_add_mod scaled (2 ^ shift)
    rw [Nat.pow_add] at hle
    rcases roundHalfEven_cases scaled (2 ^ shift) with ⟨hround, -⟩ | ⟨hround, hhalf, -⟩
    · rw [hround, Nat.mul_comm (scaled / 2 ^ shift)]
      omega
    · rw [hround, Nat.succ_mul, Nat.mul_comm (scaled / 2 ^ shift)]
      omega

/-- Twice the middle behind the third value from the end. -/
def roomUnits : Nat := middleUnits (infinityWord - 3)

/-- Twice the middle behind the greatest value. -/
def limitUnits : Nat := middleUnits (infinityWord - 1)

/-- A fraction below the last middle is nearest to a finite magnitude. -/
theorem magnitudeOfRatio_lt_infinityWord {num den : Nat} (hden : 0 < den)
    (h : 2 * (num * unitsPerOne) < limitUnits * den) : magnitudeOfRatio num den < infinityWord := by
  have hle := (isNearestMagnitude_magnitudeOfRatio num hden).le_of_lt_middle hden h
  exact Nat.lt_of_le_of_lt hle (by decide)

/-- There are two more middles behind the one that the room is measured by. -/
theorem middleUnits_le_roomUnits {n : Nat} (h : n + 3 ≤ infinityWord) :
    middleUnits n ≤ roomUnits :=
  middleUnits_mono (Nat.le_sub_of_add_le h)

/-- A power of ten from this one on leaves no room. -/
theorem exists_roomUnits_lt : ∃ k ≤ 309, roomUnits < 2 * (10 ^ k * unitsPerOne) :=
  ⟨309, Nat.le_refl _, by decide +kernel⟩

/-- There is room for any coefficient of 64 bits with ninety-nine zeros. -/
theorem short_le_roomUnits : 2 * (2 ^ 64 * 10 ^ 99 * unitsPerOne) ≤ roomUnits := by decide +kernel

theorem roomUnits_mul_lt : roomUnits * ((2 ^ 53 + 1) * (2 ^ 53 + 1))
    < limitUnits * (2 ^ 53 * 2 ^ 53) := by decide +kernel

end Binary64

namespace Decimal

open Binary64

variable (negative : Bool) {c k : Nat} {e : Int}

/-- The product of the factors is not past all values. -/
theorem isInfinite_raised {d : Decimal} (hc : d.coefficient < 2 ^ 64) (hle : d.exponent ≤ 308)
    (h : 2 * (d.coefficient * 10 ^ d.exponent.toNat * unitsPerOne) ≤ roomUnits) :
    (raised negative d).isInfinite = false := by
  have hx := (isNearest_coefficient negative hc).units_mul_le
  have hp := (isNearest_powerOfTen (k := d.exponent.toNat) (by omega)).units_mul_le
  have hden : 0 < unitsPerOne * unitsPerOne := Nat.mul_pos unitsPerOne_pos unitsPerOne_pos
  rw [raised]
  generalize (ofRatio negative d.coefficient 1).units = x at hx ⊢
  generalize (powerOfTen d.exponent.toNat).units = p at hp ⊢
  generalize 10 ^ d.exponent.toNat = power at h hp
  have hmiddle : 2 * (x * p * unitsPerOne) < limitUnits * (unitsPerOne * unitsPerOne) := by
    refine Nat.lt_of_mul_lt_mul_right (a := 2 ^ 53 * 2 ^ 53) ?_
    calc 2 * (x * p * unitsPerOne) * (2 ^ 53 * 2 ^ 53)
        = 2 * ((x * 2 ^ 53) * (p * 2 ^ 53) * unitsPerOne) := by ring
      _ ≤ 2 * ((d.coefficient * unitsPerOne * (2 ^ 53 + 1))
            * (power * unitsPerOne * (2 ^ 53 + 1)) * unitsPerOne) :=
          Nat.mul_le_mul_left _ (Nat.mul_le_mul_right _ (Nat.mul_le_mul hx hp))
      _ = 2 * (d.coefficient * power * unitsPerOne)
            * ((2 ^ 53 + 1) * (2 ^ 53 + 1)) * (unitsPerOne * unitsPerOne) := by ring
      _ ≤ roomUnits * ((2 ^ 53 + 1) * (2 ^ 53 + 1)) * (unitsPerOne * unitsPerOne) :=
          Nat.mul_le_mul_right _ (Nat.mul_le_mul_right _ h)
      _ < limitUnits * (2 ^ 53 * 2 ^ 53) * (unitsPerOne * unitsPerOne) :=
          Nat.mul_lt_mul_of_pos_right roomUnits_mul_lt hden
      _ = limitUnits * (unitsPerOne * unitsPerOne) * (2 ^ 53 * 2 ^ 53) := by ring
  exact isInfinite_eq_false (isNearest_ofRatio_of_lt negative hden
    (magnitudeOfRatio_lt_infinityWord hden hmiddle)).finite

/-- A decimal that leaves room is not too great for scaling. -/
theorem exists_scale?_of_le {d : Decimal} (hc : d.coefficient < 2 ^ 64)
    (h : 0 ≤ d.exponent →
      2 * (d.coefficient * 10 ^ d.exponent.toNat * unitsPerOne) ≤ roomUnits) :
    ∃ x, d.scale? negative = some x := by
  by_cases hzero : d.coefficient = 0
  · exact ⟨_, scale?_of_coefficient_eq_zero negative hzero⟩
  by_cases hneg : d.exponent < 0
  · exact ⟨_, scale?_of_neg negative hneg⟩
  have h := h (by omega)
  have hle : d.exponent ≤ 308 := by
    refine Int.not_lt.mp fun hlt => ?_
    obtain ⟨k, hk, hroom⟩ := exists_roomUnits_lt
    have hpow : 10 ^ k ≤ d.coefficient * 10 ^ d.exponent.toNat :=
      Nat.le_trans (Nat.pow_le_pow_right (by decide) (by omega))
        (Nat.le_mul_of_pos_left _ (Nat.pos_of_ne_zero hzero))
    have hgreat := Nat.mul_le_mul_left 2 (Nat.mul_le_mul_right unitsPerOne hpow)
    exact Nat.lt_irrefl _ (Nat.lt_of_lt_of_le hroom (Nat.le_trans hgreat h))
  refine ⟨raised negative d, ?_⟩
  rw [scale?_of_nonneg negative (by omega) hle,
    if_neg (by simp [isInfinite_raised negative hc hle h])]

theorem exists_scale?_of_exponent_lt {d : Decimal} (hc : d.coefficient < 2 ^ 64)
    (he : d.exponent < 100) : ∃ x, d.scale? negative = some x := by
  refine exists_scale?_of_le negative hc fun _ => Nat.le_trans ?_ short_le_roomUnits
  have hpow : 10 ^ d.exponent.toNat ≤ 10 ^ 99 := Nat.pow_le_pow_right (by decide) (by omega)
  exact Nat.mul_le_mul_left 2
    (Nat.mul_le_mul_right unitsPerOne (Nat.mul_le_mul (Nat.le_of_lt hc) hpow))

theorem isInfinite_round (hc : 10 ^ k ≤ c) (h : 311 ≤ k + e) :
    (round negative ⟨c, e⟩).isInfinite = true := by
  have hden : 0 < den ⟨c, e⟩ := Nat.pow_pos (by decide)
  have hle : infinityWord ≤ magnitudeOfRatio (num ⟨c, e⟩) (den ⟨c, e⟩) := by
    apply infinityWord_le_magnitudeOfRatio hden
    rw [num_eq, den_eq]
    obtain ⟨n, hn⟩ : ∃ n, k + e.toNat = n + (-e).toNat := ⟨k + e.toNat - (-e).toNat, by omega⟩
    calc unitLimit * 10 ^ (-e).toNat
        ≤ 10 ^ n * unitsPerOne * 10 ^ (-e).toNat := Nat.mul_le_mul_right _ (unitLimit_le (by omega))
      _ = 10 ^ k * 10 ^ e.toNat * unitsPerOne := by
          rw [Nat.mul_right_comm, ← Nat.pow_add, ← Nat.pow_add, hn]
      _ ≤ c * 10 ^ e.toNat * unitsPerOne := Nat.mul_le_mul_right _ (Nat.mul_le_mul_right _ hc)
  rw [round_eq_ofRatio, ofRatio, Nat.min_eq_left hle]
  exact isInfinite_withSign_infinityWord negative

end Decimal

end SolidScript
