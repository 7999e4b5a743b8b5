import SolidScript.Number.Decimal.Lemmas

/-!
# The nearest number

What rounding means, told without rounding: of all magnitudes none is nearer to the fraction, and of
two that are equally near it is the one with the even word (`IsNearestMagnitude`). There is exactly
one such magnitude, and it is the one that rounding computes (`isNearestMagnitude_iff`). So rounding
takes a fraction to the value that is nearest to it in this sense, unless the fraction is past all
values (`ofRatio_eq_iff`).

For this purpose the magnitudes go on behind the greatest finite one as if exponents had no end. So
a fraction is too great exactly if the magnitude nearest to it is none of the finite ones.
-/

namespace SolidScript.Binary64

/-! ## Magnitudes -/

/-- The number of units of the magnitude with the given word. -/
def magnitudeUnits (n : Nat) : Nat :=
  if n < 2 ^ 52 then n else (2 ^ 52 + n % 2 ^ 52) * 2 ^ (n / 2 ^ 52 - 1)

theorem magnitudeUnits_of_lt {n : Nat} (h : n < 2 ^ 52) : magnitudeUnits n = n := if_pos h

theorem magnitudeUnits_eq {e f : Nat} (hf : f < 2 ^ 52) :
    magnitudeUnits ((e + 1) * 2 ^ 52 + f) = (2 ^ 52 + f) * 2 ^ e := by
  have hdiv : ((e + 1) * 2 ^ 52 + f) / 2 ^ 52 = e + 1 := by omega
  have hmod : ((e + 1) * 2 ^ 52 + f) % 2 ^ 52 = f := by omega
  rw [magnitudeUnits, if_neg (by omega), hdiv, hmod, Nat.add_sub_cancel]

/-- The units of a value are those of its word without the sign. -/
theorem units_eq_magnitudeUnits (x : Binary64) : x.units = magnitudeUnits (x.word % 2 ^ 63) := by
  have hf := x.fraction_lt
  rw [magnitude_eq, units_eq]
  split
  next h => rw [h, Nat.zero_mul, Nat.zero_add, magnitudeUnits_of_lt hf]
  next h =>
    obtain ⟨e, he⟩ := Nat.exists_eq_add_one_of_ne_zero h
    rw [he, magnitudeUnits_eq hf, Nat.add_sub_cancel]

theorem magnitudeUnits_lt_succ (n : Nat) : magnitudeUnits n < magnitudeUnits (n + 1) := by
  by_cases hsmall : n + 1 < 2 ^ 52
  · rw [magnitudeUnits_of_lt hsmall, magnitudeUnits_of_lt (by omega)]
    exact Nat.lt_succ_self n
  by_cases hlast : n < 2 ^ 52
  · obtain rfl : n = 2 ^ 52 - 1 := by omega
    decide
  · obtain ⟨e, he⟩ := Nat.exists_eq_add_one_of_ne_zero (n := n / 2 ^ 52) (by omega)
    obtain ⟨f, hf, rfl⟩ : ∃ f, f < 2 ^ 52 ∧ n = (e + 1) * 2 ^ 52 + f :=
      ⟨n % 2 ^ 52, Nat.mod_lt _ (by decide), by omega⟩
    have hpos : 0 < 2 ^ e := Nat.pow_pos (by decide)
    rw [magnitudeUnits_eq hf]
    by_cases hcarry : f + 1 < 2 ^ 52
    · rw [Nat.add_assoc, magnitudeUnits_eq hcarry]
      exact Nat.mul_lt_mul_of_pos_right (by omega) hpos
    · -- the fraction is full, and the next magnitude starts with the next exponent
      have hnext : (e + 1) * 2 ^ 52 + f + 1 = (e + 1 + 1) * 2 ^ 52 + 0 := by omega
      have hdouble : 2 ^ (e + 1) = 2 * 2 ^ e := Nat.pow_succ'
      rw [hnext, magnitudeUnits_eq (by decide), hdouble, ← Nat.mul_assoc]
      exact Nat.mul_lt_mul_of_pos_right (by omega) hpos

theorem magnitudeUnits_strictMono {m n : Nat} (h : m < n) :
    magnitudeUnits m < magnitudeUnits n := by
  induction h with
  | refl => exact magnitudeUnits_lt_succ m
  | step _ ih => exact Nat.lt_trans ih (magnitudeUnits_lt_succ _)

theorem magnitudeUnits_mono {m n : Nat} (h : m ≤ n) : magnitudeUnits m ≤ magnitudeUnits n := by
  rcases Nat.eq_or_lt_of_le h with rfl | hlt
  · exact Nat.le_refl _
  · exact Nat.le_of_lt (magnitudeUnits_strictMono hlt)

theorem magnitudeUnits_injective {m n : Nat} (h : magnitudeUnits m = magnitudeUnits n) : m = n := by
  rcases Nat.lt_trichotomy m n with hlt | heq | hgt
  · exact absurd h (Nat.ne_of_lt (magnitudeUnits_strictMono hlt))
  · exact heq
  · exact absurd h (Nat.ne_of_gt (magnitudeUnits_strictMono hgt))

/-- Twice the middle between a magnitude and the next one. It is not to be computed. -/
@[irreducible] def middleUnits (n : Nat) : Nat := magnitudeUnits n + magnitudeUnits (n + 1)

theorem middleUnits_mono {m n : Nat} (h : m ≤ n) : middleUnits m ≤ middleUnits n := by
  rw [middleUnits, middleUnits]
  exact Nat.add_le_add (magnitudeUnits_mono h) (magnitudeUnits_mono (Nat.succ_le_succ h))

/-! ## Nearness -/

/-- How far a magnitude is from a fraction: the difference in units, taken `den` times. -/
def gap (n num den : Nat) : Nat :=
  ((magnitudeUnits n * den : Nat) - (num * unitsPerOne : Nat) : Int).natAbs

/-- No magnitude is nearer to the fraction, and one that is as near is there only if the word is
even. -/
structure IsNearestMagnitude (n num den : Nat) : Prop where
  le : ∀ m, gap n num den ≤ gap m num den
  even : ∀ m, m ≠ n → gap m num den = gap n num den → n % 2 = 0

/-- Two magnitudes that are equally near have another one between them if both words are even. -/
theorem IsNearestMagnitude.unique {m n num den : Nat} (hden : 0 < den)
    (hm : IsNearestMagnitude m num den) (hn : IsNearestMagnitude n num den) : m = n := by
  have hsame : gap m num den = gap n num den := Nat.le_antisymm (hm.le n) (hn.le m)
  have hnot : ∀ {k l : Nat}, IsNearestMagnitude k num den → IsNearestMagnitude l num den →
      gap k num den = gap l num den → ¬k < l := by
    intro k l hk hl hgap hlt
    have hkeven := hk.even l (by omega) hgap.symm
    have hleven := hl.even k (by omega) hgap
    have hlow : magnitudeUnits k * den < magnitudeUnits (k + 1) * den :=
      Nat.mul_lt_mul_of_pos_right (magnitudeUnits_lt_succ k) hden
    have hhigh : magnitudeUnits (k + 1) * den < magnitudeUnits l * den :=
      Nat.mul_lt_mul_of_pos_right (magnitudeUnits_strictMono (by omega)) hden
    have hbetween := hk.le (k + 1)
    simp only [gap] at hgap hbetween
    generalize magnitudeUnits k * den = low at hlow hgap hbetween
    generalize magnitudeUnits (k + 1) * den = middle at hlow hhigh hbetween
    generalize magnitudeUnits l * den = high at hhigh hgap
    generalize num * unitsPerOne = target at hgap hbetween
    -- equally far on both sides, and nothing between: only neighbours are left
    omega
  rcases Nat.lt_trichotomy m n with hlt | heq | hgt
  · exact absurd hlt (hnot hm hn hsame)
  · exact heq
  · exact absurd hgt (hnot hn hm hsame.symm)

/-! ## Rounding -/

/-- Rounding goes down or up, over half the denominator at most, and to an even number over exactly
half of it. -/
theorem roundHalfEven_cases (num den : Nat) :
    (roundHalfEven num den = num / den ∧ 2 * (num % den) ≤ den
        ∧ (2 * (num % den) = den → num / den % 2 = 0))
      ∨ (roundHalfEven num den = num / den + 1 ∧ den ≤ 2 * (num % den)
        ∧ (2 * (num % den) = den → (num / den + 1) % 2 = 0)) := by
  simp only [roundHalfEven]
  by_cases hbelow : 2 * (num % den) < den
  · rw [if_pos hbelow]
    omega
  by_cases habove : den < 2 * (num % den)
  · rw [if_neg hbelow, if_pos habove]
    omega
  · rw [if_neg hbelow, if_neg habove]
    split <;> omega

/-- A multiple is the one below, the one above, or further away than either. -/
theorem multiple_cases (j q den : Nat) :
    (j = q ∧ j * den = q * den) ∨ (j = q + 1 ∧ j * den = q * den + den)
      ∨ j * den + den ≤ q * den ∨ q * den + den + den ≤ j * den := by
  rcases Nat.lt_trichotomy j q with h | rfl | h
  · have hle := Nat.mul_le_mul_right den h
    rw [Nat.succ_mul] at hle
    exact Or.inr (Or.inr (Or.inl hle))
  · exact Or.inl ⟨rfl, rfl⟩
  · rcases Nat.eq_or_lt_of_le h with rfl | h
    · exact Or.inr (Or.inl ⟨rfl, Nat.succ_mul ..⟩)
    · have hle := Nat.mul_le_mul_right den h
      rw [Nat.succ_mul, Nat.succ_mul] at hle
      exact Or.inr (Or.inr (Or.inr hle))

/-- Of all multiples of the denominator, the one that is chosen is nearest, and even in a tie. -/
theorem roundHalfEven_nearest (num : Nat) {den : Nat} (hden : 0 < den) (j : Nat) :
    ((roundHalfEven num den * den : Nat) - (num : Nat) : Int).natAbs
        ≤ ((j * den : Nat) - (num : Nat) : Int).natAbs
      ∧ (j ≠ roundHalfEven num den → ((j * den : Nat) - (num : Nat) : Int).natAbs
          = ((roundHalfEven num den * den : Nat) - (num : Nat) : Int).natAbs →
        roundHalfEven num den % 2 = 0) := by
  have hnum : num / den * den + num % den = num := Nat.div_add_mod' num den
  have hmod := Nat.mod_lt num hden
  have hj := multiple_cases j (num / den) den
  have hk := roundHalfEven_cases num den
  generalize roundHalfEven num den = k at hk ⊢
  generalize num / den = q at hnum hj hk
  generalize num % den = r at hnum hmod hk
  generalize j * den = multiple at hj ⊢
  rcases hk with ⟨rfl, hhalf, heven⟩ | ⟨rfl, hhalf, heven⟩
  · generalize k * den = low at hnum hj ⊢
    rcases hj with ⟨rfl, rfl⟩ | ⟨rfl, rfl⟩ | hj | hj <;> omega
  · rw [Nat.succ_mul]
    generalize q * den = low at hnum hj ⊢
    rcases hj with ⟨rfl, rfl⟩ | ⟨rfl, rfl⟩ | hj | hj <;> omega

/-- A number of at most fifty-three bits, moved to the left, is a magnitude. -/
theorem magnitudeUnits_shift {k shift : Nat} (hk : k ≤ 2 ^ 53) (h : shift = 0 ∨ 2 ^ 52 ≤ k) :
    magnitudeUnits (shift * 2 ^ 52 + k) = k * 2 ^ shift := by
  by_cases hsmall : k < 2 ^ 52
  · obtain rfl : shift = 0 := by omega
    rw [Nat.zero_mul, Nat.zero_add, magnitudeUnits_of_lt hsmall, Nat.pow_zero, Nat.mul_one]
  by_cases hcarry : k < 2 ^ 53
  · have hword : shift * 2 ^ 52 + k = (shift + 1) * 2 ^ 52 + (k - 2 ^ 52) := by omega
    rw [hword, magnitudeUnits_eq (by omega), Nat.add_sub_cancel' (by omega)]
  · obtain rfl : k = 2 ^ 53 := by omega
    have hword : shift * 2 ^ 52 + 2 ^ 53 = (shift + 1 + 1) * 2 ^ 52 + 0 := by omega
    rw [hword, magnitudeUnits_eq (by decide), Nat.add_zero, ← Nat.pow_add, ← Nat.pow_add]
    congr 1
    omega

/-- From a power of two on, magnitudes are multiples. -/
theorem exists_magnitudeUnits_eq {n shift : Nat} (h : shift = 0 ∨ (shift + 1) * 2 ^ 52 ≤ n) :
    ∃ j, magnitudeUnits n = j * 2 ^ shift := by
  rcases h with rfl | h
  · exact ⟨magnitudeUnits n, (Nat.mul_one _).symm⟩
  · obtain ⟨e, he⟩ := Nat.exists_eq_add_of_le (m := shift + 1) (n := n / 2 ^ 52) (by omega)
    obtain ⟨f, hf, rfl⟩ : ∃ f, f < 2 ^ 52 ∧ n = (shift + e + 1) * 2 ^ 52 + f :=
      ⟨n % 2 ^ 52, Nat.mod_lt _ (by decide), by omega⟩
    refine ⟨(2 ^ 52 + f) * 2 ^ e, ?_⟩
    rw [magnitudeUnits_eq hf, Nat.add_comm shift, Nat.pow_add, Nat.mul_assoc]

/-- How many bits are left out, and what is left after rounding. -/
theorem rounded_bounds (num den : Nat) :
    let shift := (num * unitsPerOne / den).log2 - 52
    let k := roundHalfEven (num * unitsPerOne) (den * 2 ^ shift)
    k ≤ 2 ^ 53 ∧ (shift = 0 ∨ 2 ^ 52 ≤ k ∧ 2 ^ (52 + shift) ≤ num * unitsPerOne / den) := by
  generalize num * unitsPerOne = scaled
  intro shift k
  have hquotient : scaled / (den * 2 ^ shift) = scaled / den / 2 ^ shift :=
    (Nat.div_div_eq_div_mul ..).symm
  have hk : k = scaled / den / 2 ^ shift ∨ k = scaled / den / 2 ^ shift + 1 := by
    rw [← hquotient]
    exact (roundHalfEven_cases scaled (den * 2 ^ shift)).imp And.left And.left
  have hlt : scaled / den / 2 ^ shift < 2 ^ 53 := by
    rw [Nat.div_lt_iff_lt_mul (Nat.pow_pos (by decide)), ← Nat.pow_add]
    exact Nat.lt_of_lt_of_le Nat.lt_log2_self (Nat.pow_le_pow_right (by decide) (by omega))
  refine ⟨by omega, ?_⟩
  rcases Nat.eq_zero_or_pos shift with hzero | hpos
  · exact Or.inl hzero
  · have hne : scaled / den ≠ 0 := by
      intro h
      simp [shift, h] at hpos
    have hle : 2 ^ (52 + shift) ≤ scaled / den := by
      refine Nat.le_trans (Nat.pow_le_pow_right (by decide) ?_) (Nat.log2_self_le hne)
      omega
    have hsig : 2 ^ 52 ≤ scaled / den / 2 ^ shift := by
      rwa [Nat.le_div_iff_mul_le (Nat.pow_pos (by decide)), ← Nat.pow_add]
    exact Or.inr ⟨by omega, hle⟩

/-- **Rounding finds the nearest magnitude.** -/
theorem isNearestMagnitude_magnitudeOfRatio (num : Nat) {den : Nat} (hden : 0 < den) :
    IsNearestMagnitude (magnitudeOfRatio num den) num den := by
  obtain ⟨hk, hshift⟩ := rounded_bounds num den
  rw [magnitudeOfRatio_eq]
  generalize (num * unitsPerOne / den).log2 - 52 = shift at hk hshift ⊢
  have hnearest := roundHalfEven_nearest (num * unitsPerOne)
    (Nat.mul_pos hden (Nat.pow_pos (n := shift) (by decide : 0 < 2)))
  generalize roundHalfEven (num * unitsPerOne) (den * 2 ^ shift) = k
    at hk hshift hnearest ⊢
  have hunits : magnitudeUnits (shift * 2 ^ 52 + k) = k * 2 ^ shift :=
    magnitudeUnits_shift hk (hshift.imp_right And.left)
  have hgap {m j : Nat} (hm : magnitudeUnits m = j * 2 ^ shift) : gap m num den
      = ((j * (den * 2 ^ shift) : Nat) - (num * unitsPerOne : Nat) : Int).natAbs := by
    rw [gap, hm, Nat.mul_assoc, Nat.mul_comm (2 ^ shift)]
  -- a magnitude that is no multiple lies below a power of two that the fraction has passed
  have hbelow {m : Nat} (hm : ¬(shift = 0 ∨ (shift + 1) * 2 ^ 52 ≤ m)) :
      gap (shift * 2 ^ 52 + k) num den < gap m num den := by
    obtain ⟨hpos, hlt⟩ := not_or.mp hm
    obtain ⟨-, hle⟩ := hshift.resolve_left hpos
    have hpower : magnitudeUnits ((shift + 1) * 2 ^ 52 + 0) = 2 ^ 52 * 2 ^ shift :=
      magnitudeUnits_eq (by decide)
    refine Nat.lt_of_le_of_lt (m := gap ((shift + 1) * 2 ^ 52 + 0) num den) ?_ ?_
    · rw [hgap hunits, hgap hpower]
      exact (hnearest _).1
    · have hless : magnitudeUnits m * den < 2 ^ 52 * 2 ^ shift * den := by
        rw [← hpower]
        exact Nat.mul_lt_mul_of_pos_right (magnitudeUnits_strictMono (by omega)) hden
      have hreached : 2 ^ 52 * 2 ^ shift * den ≤ num * unitsPerOne := by
        rw [← Nat.pow_add]
        exact (Nat.le_div_iff_mul_le hden).mp hle
      simp only [gap, hpower]
      generalize magnitudeUnits m * den = low at hless ⊢
      generalize 2 ^ 52 * 2 ^ shift * den = power at hless hreached ⊢
      generalize num * unitsPerOne = target at hreached ⊢
      omega
  constructor
  · intro m
    by_cases hm : shift = 0 ∨ (shift + 1) * 2 ^ 52 ≤ m
    · obtain ⟨j, hj⟩ := exists_magnitudeUnits_eq hm
      rw [hgap hunits, hgap hj]
      exact (hnearest j).1
    · exact Nat.le_of_lt (hbelow hm)
  · intro m hne htie
    by_cases hm : shift = 0 ∨ (shift + 1) * 2 ^ 52 ≤ m
    · obtain ⟨j, hj⟩ := exists_magnitudeUnits_eq hm
      have hjk : j ≠ k := by
        rintro rfl
        exact hne (magnitudeUnits_injective (hj.trans hunits.symm))
      rw [hgap hunits, hgap hj] at htie
      have heven := (hnearest j).2 hjk htie
      omega
    · exact absurd htie (Nat.ne_of_gt (hbelow hm))

/-- It finds nothing else, because there is only one. -/
theorem isNearestMagnitude_iff {n num den : Nat} (hden : 0 < den) :
    IsNearestMagnitude n num den ↔ n = magnitudeOfRatio num den := by
  constructor
  · intro h
    exact h.unique hden (isNearestMagnitude_magnitudeOfRatio num hden)
  · rintro rfl
    exact isNearestMagnitude_magnitudeOfRatio num hden

section Bounds

variable {m n num den : Nat} (hden : 0 < den) (h : IsNearestMagnitude n num den)

include hden h

/-- Below the middle between a magnitude and the next one, nothing greater is nearest. -/
theorem IsNearestMagnitude.le_of_lt_middle
    (hlt : 2 * (num * unitsPerOne) < middleUnits m * den) : n ≤ m := by
  refine Nat.le_of_not_lt fun hgreater => ?_
  have hgap := h.le m
  have hnext : m + 1 ≤ n := hgreater
  have hmul := Nat.mul_le_mul_right den (magnitudeUnits_mono hnext)
  have hstep := Nat.mul_lt_mul_of_pos_right (magnitudeUnits_lt_succ m) hden
  rw [middleUnits, Nat.add_mul] at hlt
  simp only [gap] at hgap
  generalize magnitudeUnits m * den = low at hlt hgap hstep
  generalize magnitudeUnits (m + 1) * den = next at hlt hmul hstep
  generalize magnitudeUnits n * den = high at hgap hmul
  generalize num * unitsPerOne = target at hlt hgap
  omega

/-- What a magnitude is nearest to does not lie above the middle between it and the next one. -/
theorem IsNearestMagnitude.le_middle :
    2 * (num * unitsPerOne) ≤ middleUnits n * den := by
  have hgap := h.le (n + 1)
  have hmul := Nat.mul_lt_mul_of_pos_right (magnitudeUnits_lt_succ n) hden
  rw [middleUnits, Nat.add_mul]
  simp only [gap] at hgap
  omega

/-- Below a magnitude nothing greater is nearest. -/
theorem IsNearestMagnitude.le_of_le (hle : num * unitsPerOne ≤ magnitudeUnits m * den) :
    n ≤ m := by
  apply h.le_of_lt_middle hden
  have hmul := Nat.mul_lt_mul_of_pos_right (magnitudeUnits_lt_succ m) hden
  rw [middleUnits, Nat.add_mul]
  omega

/-- Above a magnitude nothing smaller is. -/
theorem IsNearestMagnitude.ge_of_ge (hle : magnitudeUnits m * den ≤ num * unitsPerOne) :
    m ≤ n := by
  refine Nat.le_of_not_lt fun hlt => ?_
  have hgap := h.le m
  have hmul := Nat.mul_lt_mul_of_pos_right (magnitudeUnits_strictMono hlt) hden
  simp only [gap] at hgap
  omega

end Bounds

/-- Nearness is to a fraction, however that is written. -/
theorem isNearestMagnitude_mul_right {n num den k : Nat} (hden : 0 < den) (hk : 0 < k) :
    IsNearestMagnitude n (num * k) (den * k) ↔ IsNearestMagnitude n num den := by
  rw [isNearestMagnitude_iff (Nat.mul_pos hden hk), isNearestMagnitude_iff hden,
    magnitudeOfRatio_mul_right _ _ hk]

/-! ## Values -/

/-- The value is finite, with the given sign, and no other is nearer to the fraction. -/
structure IsNearest (x : Binary64) (negative : Bool) (num den : Nat) : Prop where
  sign : x.isNegative = negative
  finite : x.isFinite = true
  nearest : IsNearestMagnitude (x.word % 2 ^ 63) num den

theorem word_withSign (negative : Bool) {n : Nat} (h : n < 2 ^ 63) :
    (withSign negative n).word = if negative then 2 ^ 63 + n else n := by
  have hlt : (if negative then 0x8000000000000000 + n else n) < 2 ^ 64 := by
    split <;> omega
  exact Nat.mod_eq_of_lt hlt

/-- A value is finite if its magnitude is less than that of infinity. -/
theorem isFinite_iff (x : Binary64) : x.isFinite = true ↔ x.word % 2 ^ 63 < infinityWord := by
  have hf := x.fraction_lt
  have he := x.exponentField_lt
  rw [isFinite, decide_eq_true_eq, magnitude_eq, infinityWord]
  omega

theorem isInfinite_withSign_infinityWord (negative : Bool) :
    (withSign negative infinityWord).isInfinite = true := by
  cases negative <;> decide

theorem isNegative_ofRatio (negative : Bool) (num den : Nat) :
    (ofRatio negative num den).isNegative = negative := by
  have hbound : infinityWord < 2 ^ 63 := by decide
  rw [ofRatio, isNegative, word_withSign negative (by omega)]
  cases negative with
  | false =>
    rw [if_neg Bool.false_ne_true, decide_eq_false_iff_not]
    omega
  | true =>
    rw [if_pos rfl, decide_eq_true_eq]
    omega

theorem magnitude_ofRatio (negative : Bool) (num den : Nat) :
    (ofRatio negative num den).word % 2 ^ 63 = min infinityWord (magnitudeOfRatio num den) := by
  have hbound : infinityWord < 2 ^ 63 := by decide
  rw [ofRatio, word_withSign negative (by omega)]
  split <;> omega

theorem isNearest_ofRatio_of_lt (negative : Bool) {num den : Nat} (hden : 0 < den)
    (h : magnitudeOfRatio num den < infinityWord) :
    (ofRatio negative num den).IsNearest negative num den := by
  have hmagnitude := magnitude_ofRatio negative num den
  rw [Nat.min_eq_right (Nat.le_of_lt h)] at hmagnitude
  refine ⟨isNegative_ofRatio negative num den, ?_, ?_⟩
  · rwa [isFinite_iff, hmagnitude]
  · rw [hmagnitude]
    exact isNearestMagnitude_magnitudeOfRatio num hden

/-- A fraction that is not greater than a finite magnitude has a nearest value. -/
theorem isNearest_ofRatio (negative : Bool) {m num den : Nat} (hden : 0 < den)
    (hm : m < infinityWord) (hle : num * unitsPerOne ≤ magnitudeUnits m * den) :
    (ofRatio negative num den).IsNearest negative num den :=
  isNearest_ofRatio_of_lt negative hden (Nat.lt_of_le_of_lt
    ((isNearestMagnitude_magnitudeOfRatio num hden).le_of_le hden hle) hm)

/-- There is only one nearest value. -/
theorem IsNearest.eq_ofRatio {x : Binary64} {negative : Bool} {num den : Nat} (hden : 0 < den)
    (h : x.IsNearest negative num den) : ofRatio negative num den = x := by
  have hlt := (isFinite_iff x).mp h.finite
  rw [ofRatio, ← (isNearestMagnitude_iff hden).mp h.nearest, Nat.min_eq_right (by omega), ← h.sign,
    withSign_magnitude]

/-- **Rounding finds the nearest value**, if the fraction is not past all values. -/
theorem ofRatio_eq_iff {x : Binary64} {negative : Bool} {num den : Nat} (hden : 0 < den) :
    (ofRatio negative num den = x ∧ x.isInfinite = false) ↔ x.IsNearest negative num den := by
  constructor
  · rintro ⟨rfl, hfinite⟩
    refine isNearest_ofRatio_of_lt negative hden (Nat.lt_of_not_le fun hle => ?_)
    rw [ofRatio, Nat.min_eq_left hle, isInfinite_withSign_infinityWord] at hfinite
    cases hfinite
  · exact fun h => ⟨h.eq_ofRatio hden, isInfinite_eq_false h.finite⟩

end SolidScript.Binary64
