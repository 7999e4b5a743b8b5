import SolidScript.Number.Scale
import SolidScript.Proofs.Number.Decimal
import SolidScript.Proofs.Number.Nearest

/-!
# Scaling

What becomes of a decimal in a document, told by the nearest values alone: of the coefficient, of a
power of ten, and of their product or quotient (`Scales`). Where the power divides and is too great
for a value, it is divided by in steps (`Lowers`). This is what `Decimal.scale?` computes
(`scale?_eq_some_iff`).

The steps round one after the other, so the value need not be nearest to the decimal. It is if the
coefficient has at most fifty-three bits and the power of ten is one of the first: then both are
values, and nothing is rounded before the last step (`Scales.isNearest`).
-/

namespace SolidScript.Binary64

variable {x y p : Binary64} {negative : Bool} {k : Nat} {d : Decimal}

/-! ## What scaling means -/

/-- The value is divided by ten to the power of `k`: by the greatest power again and again, as long
as the exponent is greater than that of it, and then by the power that is left. -/
inductive Lowers : Binary64 → Nat → Binary64 → Prop where
  | last {x p y : Binary64} {k : Nat} (hk : 0 < k) (hle : k ≤ 308)
    (hp : p.IsNearest false (10 ^ k) 1) (hy : y.IsNearest x.isNegative x.units p.units) :
    Lowers x k y
  | step {x p y z : Binary64} {k : Nat} (hk : 0 < k) (hp : p.IsNearest false (10 ^ 308) 1)
    (hy : y.IsNearest x.isNegative x.units p.units) (hz : Lowers y k z) : Lowers x (k + 308) z

/-- The value that a decimal is read as. A coefficient of zero is zero whatever the exponent is. -/
inductive Scales (negative : Bool) (d : Decimal) : Binary64 → Prop where
  | zero (hc : d.coefficient = 0) : Scales negative d (withSign negative 0)
  | raised {x p y : Binary64} (he : 0 ≤ d.exponent) (hle : d.exponent ≤ 308)
    (hx : x.IsNearest negative d.coefficient 1) (hp : p.IsNearest false (10 ^ d.exponent.toNat) 1)
    (hy : y.IsNearest negative (x.units * p.units) (unitsPerOne * unitsPerOne)) :
    Scales negative d y
  | lowered {x y : Binary64} (he : d.exponent < 0) (hx : x.IsNearest negative d.coefficient 1)
    (hy : Lowers x (-d.exponent).toNat y) : Scales negative d y

/-! ## Zeros and ones -/

theorem ofRatio_zero (negative : Bool) (den : Nat) :
    ofRatio negative 0 den = withSign negative 0 := by
  simp [ofRatio, magnitudeOfRatio_eq, roundHalfEven]

theorem units_of_isZero (h : x.isZero = true) : x.units = 0 := by
  have hword : x.word % 2 ^ 63 = 0 := by simpa [isZero] using h
  rw [units_eq_magnitudeUnits, hword]
  rfl

/-- The word of one. -/
def oneWord : Nat := 0x3FF0000000000000

/-- The magnitude of a power of two. -/
theorem magnitudeUnits_add_oneWord (shift : Nat) :
    magnitudeUnits (shift * 2 ^ 52 + oneWord) = 2 ^ shift * unitsPerOne := by
  obtain ⟨bits, hbits, hone⟩ := exists_unitsPerOne_eq
  have hword : shift * 2 ^ 52 + oneWord = (shift + (bits - 52)) * 2 ^ 52 + 2 ^ 52 := by
    rw [hbits, oneWord]
    omega
  have hexponent : 52 + (shift + (bits - 52)) = shift + bits := by omega
  rw [hword, magnitudeUnits_shift (by decide) (Or.inr (Nat.le_refl _)), ← Nat.pow_add, hexponent,
    Nat.pow_add, hone]

theorem magnitudeUnits_oneWord : magnitudeUnits oneWord = unitsPerOne := by
  simpa using magnitudeUnits_add_oneWord 0

/-- What is nearest to a whole number other than zero is one at least. -/
theorem IsNearest.oneWord_le {n : Nat} (h : x.IsNearest negative n 1) (hn : 0 < n) :
    oneWord ≤ x.word % 2 ^ 63 := by
  apply h.nearest.ge_of_ge Nat.one_pos
  rw [magnitudeUnits_oneWord, Nat.mul_one]
  exact Nat.le_mul_of_pos_left _ hn

theorem IsNearest.unitsPerOne_le {n : Nat} (h : x.IsNearest negative n 1) (hn : 0 < n) :
    unitsPerOne ≤ x.units := by
  rw [units_eq_magnitudeUnits, ← magnitudeUnits_oneWord]
  exact magnitudeUnits_mono (h.oneWord_le hn)

/-! ## Factors -/

/-- A coefficient of 64 bits has a nearest value. -/
theorem isNearest_coefficient (negative : Bool) {c : Nat} (hc : c < 2 ^ 64) :
    (ofRatio negative c 1).IsNearest negative c 1 := by
  apply isNearest_ofRatio negative Nat.one_pos (m := 64 * 2 ^ 52 + oneWord) (by decide)
  rw [magnitudeUnits_add_oneWord, Nat.mul_one]
  exact Nat.mul_le_mul_right _ (Nat.le_of_lt hc)

/-- A power of ten has one up to the greatest power. -/
theorem isNearest_powerOfTen (hk : k ≤ 308) : (powerOfTen k).IsNearest false (10 ^ k) 1 := by
  apply isNearest_ofRatio false Nat.one_pos (m := infinityWord - 1) (by decide)
  calc 10 ^ k * unitsPerOne ≤ 10 ^ 308 * unitsPerOne :=
        Nat.mul_le_mul_right _ (Nat.pow_le_pow_right (by decide) hk)
    _ ≤ magnitudeUnits (infinityWord - 1) * 1 := by decide +kernel

theorem isNegative_powerOfTen (k : Nat) : (powerOfTen k).isNegative = false :=
  isNegative_ofRatio ..

theorem powerOfTen_eq (hp : p.IsNearest false (10 ^ k) 1) : powerOfTen k = p :=
  hp.eq_ofRatio Nat.one_pos

theorem units_pos_of_power (hp : p.IsNearest false (10 ^ k) 1) : 0 < p.units :=
  Nat.lt_of_lt_of_le unitsPerOne_pos (hp.unitsPerOne_le (Nat.pow_pos (by decide)))

/-! ## Dividing -/

/-- A quotient by a power of ten is no greater than what is divided, so there is a nearest value. -/
theorem isNearest_dividedBy (hx : x.isFinite = true) (hp : p.IsNearest false (10 ^ k) 1) :
    (x.dividedBy p).IsNearest x.isNegative x.units p.units := by
  rw [dividedBy, hp.sign, Bool.bne_false]
  apply isNearest_ofRatio _ (units_pos_of_power hp) ((isFinite_iff x).mp hx)
  rw [← units_eq_magnitudeUnits]
  exact Nat.mul_le_mul_left _ (hp.unitsPerOne_le (Nat.pow_pos (by decide)))

theorem dividedBy_eq (hp : p.IsNearest false (10 ^ k) 1)
    (hy : y.IsNearest x.isNegative x.units p.units) : x.dividedBy p = y := by
  rw [dividedBy, hp.sign, Bool.bne_false]
  exact hy.eq_ofRatio (units_pos_of_power hp)

theorem dividedBy_of_isZero (h : x.isZero = true) (hp : p.isNegative = false) :
    x.dividedBy p = x := by
  rw [dividedBy, hp, Bool.bne_false, units_of_isZero h, ofRatio_zero, withSign_of_isZero h]

/-- A zero that is divided stays as it is, so it makes no difference that it is not. -/
theorem lower_succ (times : Nat) (x : Binary64) :
    lower (times + 1) x = lower times (x.dividedBy (powerOfTen 308)) := by
  rw [lower]
  split
  next hzero =>
    have hstays : ∀ n, lower n x = x := by
      intro n
      cases n with
      | zero => rfl
      | succ n => exact if_pos hzero
    rw [dividedBy_of_isZero hzero (isNegative_powerOfTen 308), hstays]
  next => rfl

/-- The division in steps, by an exponent that is not zero. -/
def lowered (x : Binary64) (k : Nat) : Binary64 :=
  (x.lower ((k - 1) / 308)).dividedBy (powerOfTen ((k - 1) % 308 + 1))

theorem lowered_of_le (x : Binary64) (hk : 0 < k) (hle : k ≤ 308) :
    x.lowered k = x.dividedBy (powerOfTen k) := by
  rw [lowered, Nat.div_eq_of_lt (by omega), Nat.mod_eq_of_lt (by omega), Nat.sub_add_cancel hk]
  rfl

theorem lowered_add (x : Binary64) (hk : 0 < k) :
    x.lowered (k + 308) = (x.dividedBy (powerOfTen 308)).lowered k := by
  have hsub : k + 308 - 1 = k - 1 + 308 := by omega
  rw [lowered, lowered, hsub, Nat.add_div_right _ (by decide), Nat.add_mod_right, lower_succ]

theorem lowers_lowered (hx : x.isFinite = true) (hk : 0 < k) : Lowers x k (x.lowered k) := by
  induction k using Nat.strongRecOn generalizing x with
  | _ k ih =>
    by_cases hle : k ≤ 308
    · have hp := isNearest_powerOfTen hle
      rw [lowered_of_le x hk hle]
      exact .last hk hle hp (isNearest_dividedBy hx hp)
    · obtain ⟨l, rfl⟩ := Nat.exists_eq_add_of_le' (Nat.le_of_not_le hle)
      have hl : 0 < l := by omega
      have hp := isNearest_powerOfTen (k := 308) (Nat.le_refl _)
      have hy := isNearest_dividedBy hx hp
      rw [lowered_add x hl]
      exact .step hl hp hy (ih l (by omega) hy.finite hl)

theorem Lowers.lowered_eq (h : Lowers x k y) : x.lowered k = y := by
  induction h with
  | last hk hle hp hy => rw [lowered_of_le _ hk hle, powerOfTen_eq hp, dividedBy_eq hp hy]
  | step hk hp hy _ ih => rw [lowered_add _ hk, powerOfTen_eq hp, dividedBy_eq hp hy, ih]

theorem lowered_of_isZero (h : x.isZero = true) (k : Nat) : x.lowered k = x := by
  have hlower : x.lower ((k - 1) / 308) = x := by
    cases (k - 1) / 308 with
    | zero => rfl
    | succ n => exact if_pos h
  rw [lowered, hlower, dividedBy_of_isZero h (isNegative_powerOfTen _)]

end SolidScript.Binary64

/-! ## Scaling -/

namespace SolidScript.Decimal

open Binary64

variable {negative : Bool} {d : Decimal} {x : Binary64}

theorem scale?_of_neg (negative : Bool) (he : d.exponent < 0) : d.scale? negative
    = some ((ofRatio negative d.coefficient 1).lowered (-d.exponent).toNat) := by
  rw [scale?, if_neg (by omega)]
  rfl

theorem scale?_of_great (negative : Bool) (he : 308 < d.exponent) : d.scale? negative
    = if (ofRatio negative d.coefficient 1).isZero then some (ofRatio negative d.coefficient 1)
      else none := by
  have hnot : ¬d.exponent ≤ greatestPower := Int.not_le.mpr he
  rw [scale?, if_pos (by omega)]
  exact if_neg hnot

/-- The product of the coefficient and the power of ten. -/
def raised (negative : Bool) (d : Decimal) : Binary64 :=
  ofRatio negative
    ((ofRatio negative d.coefficient 1).units * (powerOfTen d.exponent.toNat).units)
    (unitsPerOne * unitsPerOne)

theorem scale?_of_nonneg (negative : Bool) (he : 0 ≤ d.exponent) (hle : d.exponent ≤ 308) :
    d.scale? negative
      = if (raised negative d).isInfinite then none else some (raised negative d) := by
  have hle' : d.exponent ≤ greatestPower := hle
  have htimes : (ofRatio negative d.coefficient 1).times (powerOfTen d.exponent.toNat)
      = raised negative d := by
    rw [times, isNegative_ofRatio, isNegative_powerOfTen, Bool.bne_false]
    rfl
  rw [scale?, if_pos he, if_pos hle']
  simp only [htimes]

/-- Zero is zero under any exponent. -/
theorem scale?_of_coefficient_eq_zero (negative : Bool) (hc : d.coefficient = 0) :
    d.scale? negative = some (withSign negative 0) := by
  have hx : ofRatio negative d.coefficient 1 = withSign negative 0 := by rw [hc, ofRatio_zero]
  have hzero := isZero_withSign_zero negative
  by_cases hneg : d.exponent < 0
  · rw [scale?_of_neg negative hneg, hx, lowered_of_isZero hzero]
  by_cases hle : d.exponent ≤ 308
  · have hraised : raised negative d = withSign negative 0 := by
      rw [raised, hx, units_of_isZero hzero, Nat.zero_mul, ofRatio_zero]
    have hfinite : (withSign negative 0).isInfinite = false := by cases negative <;> rfl
    rw [scale?_of_nonneg negative (by omega) hle, hraised, if_neg (by simp [hfinite])]
  · rw [scale?_of_great negative (by omega), hx, if_pos hzero]

theorem scales_of_scale? (hc : d.coefficient < 2 ^ 64) (h : d.scale? negative = some x) :
    Scales negative d x := by
  have hcoefficient := isNearest_coefficient negative hc
  by_cases hneg : d.exponent < 0
  · rw [scale?_of_neg negative hneg] at h
    obtain rfl := Option.some.inj h
    exact .lowered hneg hcoefficient (lowers_lowered hcoefficient.finite (by omega))
  by_cases hle : d.exponent ≤ 308
  · have hpower := isNearest_powerOfTen (k := d.exponent.toNat) (by omega)
    rw [scale?_of_nonneg negative (by omega) hle] at h
    split at h
    next => cases h
    next hfinite =>
      have hdone : raised negative d = x := Option.some.inj h
      refine .raised (by omega) hle hcoefficient hpower ((ofRatio_eq_iff ?_).mp ⟨hdone, ?_⟩)
      · exact Nat.mul_pos unitsPerOne_pos unitsPerOne_pos
      · rw [← hdone]
        exact Bool.eq_false_iff.mpr hfinite
  · rw [scale?_of_great negative (by omega)] at h
    split at h
    next hzero =>
      -- a coefficient other than zero is one at least
      have hc : d.coefficient = 0 := by
        refine Nat.eq_zero_of_not_pos fun hpos => ?_
        have hone := hcoefficient.oneWord_le hpos
        have hword : (ofRatio negative d.coefficient 1).word % 2 ^ 63 = 0 := by
          simpa [isZero] using hzero
        rw [hword] at hone
        exact absurd hone (by decide)
      rw [hc, ofRatio_zero] at h
      obtain rfl := Option.some.inj h
      exact .zero hc
    next => cases h

theorem scale?_of_scales (h : Scales negative d x) : d.scale? negative = some x := by
  cases h with
  | zero hc => exact scale?_of_coefficient_eq_zero negative hc
  | raised he hle hx hp hy =>
    have hpos : 0 < unitsPerOne * unitsPerOne := Nat.mul_pos unitsPerOne_pos unitsPerOne_pos
    have hraised : raised negative d = x := by
      rw [raised, hx.eq_ofRatio Nat.one_pos, powerOfTen_eq hp, hy.eq_ofRatio hpos]
    rw [scale?_of_nonneg negative he hle, hraised, if_neg (by simp [isInfinite_eq_false hy.finite])]
  | lowered he hx hy =>
    rw [scale?_of_neg negative he, hx.eq_ofRatio Nat.one_pos, hy.lowered_eq]

/-- **Scaling computes what it should**, and fails where there is nothing to compute. -/
theorem scale?_eq_some_iff (hc : d.coefficient < 2 ^ 64) :
    d.scale? negative = some x ↔ Scales negative d x :=
  ⟨scales_of_scale? hc, scale?_of_scales⟩

end SolidScript.Decimal

/-! ## What is read -/

namespace SolidScript.Binary64

variable {negative : Bool} {d : Decimal} {x y : Binary64} {k : Nat}

theorem Lowers.finite (h : Lowers x k y) : y.isFinite = true := by
  induction h with
  | last _ _ _ hy => exact hy.finite
  | step _ _ _ _ ih => exact ih

/-- What is read is finite, as each step is. -/
theorem Scales.finite (h : Scales negative d x) : x.isFinite = true := by
  cases h with
  | zero => cases negative <;> decide
  | raised _ _ _ _ hy => exact hy.finite
  | lowered _ _ hy => exact hy.finite

/-! ## Where nothing is rounded before the last step -/

/-- A number of at most fifty-three bits, moved to the left, is a value. -/
theorem exists_magnitudeUnits_eq_mul {c : Nat} (hc : c < 2 ^ 53) (shift : Nat) :
    ∃ n, magnitudeUnits n = c * 2 ^ shift * unitsPerOne := by
  rcases Nat.eq_zero_or_pos c with rfl | hpos
  · exact ⟨0, by rw [Nat.zero_mul, Nat.zero_mul]; rfl⟩
  have hne := Nat.ne_of_gt hpos
  have hlog : c.log2 ≤ 52 := Nat.le_of_lt_succ ((Nat.log2_lt hne).mpr hc)
  have hpow : 2 ^ c.log2 * 2 ^ (52 - c.log2) = 2 ^ 52 := by
    rw [← Nat.pow_add, Nat.add_sub_cancel' hlog]
  have hlow : 2 ^ 52 ≤ c * 2 ^ (52 - c.log2) := by
    rw [← hpow]
    exact Nat.mul_le_mul_right _ (Nat.log2_self_le hne)
  have hhigh : c * 2 ^ (52 - c.log2) ≤ 2 ^ 53 := by
    calc c * 2 ^ (52 - c.log2) ≤ 2 ^ (c.log2 + 1) * 2 ^ (52 - c.log2) :=
          Nat.mul_le_mul_right _ (Nat.le_of_lt Nat.lt_log2_self)
      _ = 2 ^ 52 * 2 := by rw [Nat.pow_succ, Nat.mul_right_comm, hpow]
      _ = 2 ^ 53 := rfl
  -- the leading bit is moved to where values have it, and the rest goes into the exponent
  obtain ⟨bits, hbits, hone⟩ := exists_unitsPerOne_eq
  have hexponent : 52 - c.log2 + (c.log2 + (bits - 52) + shift) = shift + bits := by omega
  refine ⟨(c.log2 + (bits - 52) + shift) * 2 ^ 52 + c * 2 ^ (52 - c.log2), ?_⟩
  rw [magnitudeUnits_shift hhigh (Or.inr hlow), Nat.mul_assoc, ← Nat.pow_add, hexponent, hone,
    Nat.pow_add, Nat.mul_assoc]

/-- Such a value is nearest to itself and to nothing else. -/
theorem IsNearest.units_eq {c shift : Nat} (hc : c < 2 ^ 53)
    (h : x.IsNearest negative (c * 2 ^ shift) 1) : x.units = c * 2 ^ shift * unitsPerOne := by
  obtain ⟨n, hn⟩ := exists_magnitudeUnits_eq_mul hc shift
  have hsame : x.word % 2 ^ 63 = n := Nat.le_antisymm
    (h.nearest.le_of_le Nat.one_pos (Nat.le_of_eq (by rw [hn, Nat.mul_one])))
    (h.nearest.ge_of_ge Nat.one_pos (Nat.le_of_eq (by rw [hn, Nat.mul_one])))
  rw [units_eq_magnitudeUnits, hsame, hn]

theorem IsNearest.units_eq_of_power (hk : k ≤ 22) (h : x.IsNearest negative (10 ^ k) 1) :
    x.units = 10 ^ k * unitsPerOne := by
  have hfive : 5 ^ k < 2 ^ 53 :=
    Nat.lt_of_le_of_lt (Nat.pow_le_pow_right (by decide) hk) (by decide)
  have hten : 10 ^ k = 5 ^ k * 2 ^ k := by rw [← Nat.mul_pow]
  rw [hten] at h ⊢
  exact h.units_eq hfive

/-- **A short decimal is read as the value nearest to it**: both factors are values, and only their
product or quotient is rounded. -/
theorem Scales.isNearest (h : Scales negative d x) (hc : d.coefficient < 2 ^ 53)
    (he : d.exponent.natAbs ≤ 22) : x.IsNearest negative d.num d.den := by
  have hcoefficient {y : Binary64} (hy : y.IsNearest negative d.coefficient 1) :
      y.units = d.coefficient * unitsPerOne := by
    have hunits := @IsNearest.units_eq negative y d.coefficient 0 hc
      (by rwa [Nat.pow_zero, Nat.mul_one])
    rwa [Nat.pow_zero, Nat.mul_one] at hunits
  rw [Decimal.num_eq, Decimal.den_eq]
  cases h with
  | zero hzero =>
    rw [hzero, Nat.zero_mul, ← ofRatio_eq_iff (Nat.pow_pos (by decide))]
    exact ⟨ofRatio_zero .., by cases negative <;> rfl⟩
  | @raised y p _ hnonneg hle hy hp hx =>
    have hpower := hp.units_eq_of_power (by omega)
    have hnone : (-d.exponent).toNat = 0 := by omega
    have hproduct : y.units * p.units
        = d.coefficient * 10 ^ d.exponent.toNat * (unitsPerOne * unitsPerOne) := by
      rw [hcoefficient hy, hpower, Nat.mul_mul_mul_comm]
    have hnearest := hx.nearest
    rw [hproduct] at hnearest
    rw [hnone, Nat.pow_zero]
    refine ⟨hx.sign, hx.finite, (isNearestMagnitude_mul_right Nat.one_pos
      (Nat.mul_pos unitsPerOne_pos unitsPerOne_pos)).mp ?_⟩
    rwa [Nat.one_mul]
  | @lowered y _ hneg hy hx =>
    have hnone : d.exponent.toNat = 0 := by omega
    generalize hk : (-d.exponent).toNat = k at hx ⊢
    cases hx with
    | last hpos hle hp hx =>
      have hpower := hp.units_eq_of_power (by omega)
      have hnearest := hx.nearest
      rw [hcoefficient hy, hpower, isNearestMagnitude_mul_right (Nat.pow_pos (by decide))
        unitsPerOne_pos] at hnearest
      rw [hnone, Nat.pow_zero, Nat.mul_one]
      exact ⟨hx.sign.trans hy.sign, hx.finite, hnearest⟩
    | step => omega

end SolidScript.Binary64
