import SolidScript.Proofs.Json.Grammar
import SolidScript.Proofs.Number.Size

/-!
# The digits that a numeral keeps

Digits are gathered as long as 64 bits hold them, as the grammar says (`keeps_iff`), so the value of
a numeral is the one that the grammar asks for (`value?_eq_some_iff`). It is the value nearest to
the numeral if there are not too many digits and the exponent is small
(`Parts.scales_iff_isNearest`).

A numeral that is nearest to a value other than the two greatest of each sign has a value, though it
need not be the same one (`exists_value?_of_isNearest`).
-/

namespace SolidScript.Json

/-! ## Digits behind digits -/

theorem ofDigits_concat (ds : Text) (c : Char) :
    ofDigits (ds ++ [c]) = 10 * ofDigits ds + digitValue c := by
  rw [ofDigits, List.foldl_append]
  rfl

theorem ofDigits_le_append (ds es : Text) : ofDigits ds ≤ ofDigits (ds ++ es) := by
  rw [ofDigits_append]
  exact Nat.le_trans (Nat.le_mul_of_pos_right _ (Nat.pow_pos (by decide))) (Nat.le_add_right _ _)

theorem Held.gather_eq {front taken left : Text} (h : Held front taken left) :
    gather (ofDigits front) (taken ++ left) = (ofDigits (front ++ taken), left) := by
  induction taken generalizing front with
  | nil =>
    rw [List.nil_append, List.append_nil]
    cases left with
    | nil => rfl
    | cons c left =>
      have hfull := h.full c rfl
      rw [List.append_nil, ofDigits_concat] at hfull
      exact if_neg (Nat.not_lt_of_le hfull)
  | cons c taken ih =>
    have hassoc : front ++ c :: taken = front ++ [c] ++ taken := by simp
    have hlt := h.lt
    rw [hassoc] at hlt
    have hnext := Nat.lt_of_le_of_lt (ofDigits_le_append (front ++ [c]) taken) hlt
    have hrest := @ih (front ++ [c]) ⟨hlt, by rw [← hassoc]; exact h.full⟩
    rw [ofDigits_concat] at hnext hrest
    rw [hassoc, ← hrest, List.cons_append, gather]
    exact if_pos hnext

theorem exists_held (front ds : Text) (h : ofDigits front < 2 ^ 64) :
    ∃ taken left, ds = taken ++ left ∧ Held front taken left := by
  induction ds generalizing front with
  | nil => exact ⟨[], [], rfl, by rwa [List.append_nil], nofun⟩
  | cons c ds ih =>
    by_cases hc : ofDigits (front ++ [c]) < 2 ^ 64
    · obtain ⟨taken, left, rfl, hheld⟩ := ih (front ++ [c]) hc
      have hassoc : front ++ c :: taken = front ++ [c] ++ taken := by simp
      exact ⟨c :: taken, left, rfl, by rw [hassoc]; exact hheld.lt,
        by rw [hassoc]; exact hheld.full⟩
    · refine ⟨[], c :: ds, rfl, by rwa [List.append_nil], ?_⟩
      rintro _ ⟨⟩
      rw [List.append_nil]
      exact Nat.le_of_not_lt hc

/-- What is not too long is held as a whole. -/
theorem Held.left_eq_nil {front taken left : Text} (h : Held front taken left)
    (hlt : ofDigits (front ++ (taken ++ left)) < 2 ^ 64) : left = [] := by
  cases left with
  | nil => rfl
  | cons c left =>
    have hassoc : front ++ (taken ++ c :: left) = front ++ taken ++ [c] ++ left := by simp
    rw [hassoc] at hlt
    have hle := Nat.le_trans (h.full c rfl) (ofDigits_le_append (front ++ taken ++ [c]) left)
    omega

/-! ## What is kept -/

def Numeral.parts (n : Numeral) : Parts := ⟨n.whole, n.fraction, n.exponent⟩

section Kept

variable {n : Numeral} {p : Parts} {d : Decimal} {x : Binary64}

theorem Parts.Keeps.kept_eq (h : n.parts.Keeps d) : n.kept = d := by
  obtain ⟨negative, whole, fraction, e, isWhole⟩ := n
  cases h with
  | @digits taken skipped held left _ hwhole hfraction =>
    have hfront := hwhole.gather_eq
    rw [List.nil_append] at hfront
    have hlength : (held ++ left).length - left.length = held.length := by simp
    rw [Numeral.kept, show (0 : Nat) = ofDigits [] from rfl]
    simp only [List.append_eq, hfront, hfraction.gather_eq, hlength]

theorem exists_keeps (p : Parts) : ∃ d, p.Keeps d := by
  obtain ⟨whole, fraction, e⟩ := p
  obtain ⟨taken, skipped, rfl, hwhole⟩ := exists_held [] whole (by decide)
  obtain ⟨held, left, rfl, hfraction⟩ := exists_held taken fraction hwhole.lt
  exact ⟨_, .digits hwhole hfraction⟩

/-- A numeral keeps what the grammar says. -/
theorem keeps_iff : n.parts.Keeps d ↔ n.kept = d := by
  refine ⟨Parts.Keeps.kept_eq, ?_⟩
  rintro rfl
  obtain ⟨d, hd⟩ := exists_keeps n.parts
  rwa [hd.kept_eq]

theorem Parts.Keeps.coefficient_lt (h : p.Keeps d) : d.coefficient < 2 ^ 64 := by
  cases h with
  | digits _ hfraction => exact hfraction.lt

/-- **The value of a numeral is its decimal, as far as it is kept, scaled.** -/
theorem value?_eq_some_iff :
    n.value? = some x ↔ ∃ d, n.parts.Keeps d ∧ Binary64.Scales n.negative d x := by
  constructor
  · intro h
    have hkeeps := keeps_iff.mpr (Eq.refl n.kept)
    exact ⟨n.kept, hkeeps, (Decimal.scale?_eq_some_iff hkeeps.coefficient_lt).mp h⟩
  · rintro ⟨d, hkeeps, hscales⟩
    rw [Numeral.value?, hkeeps.kept_eq]
    exact (Decimal.scale?_eq_some_iff hkeeps.coefficient_lt).mpr hscales

/-- Digits that fit into 64 bits are all kept. -/
theorem Parts.Keeps.eq_decimal (h : p.Keeps d) (hfits : p.decimal.coefficient < 2 ^ 64) :
    d = p.decimal := by
  cases h with
  | @digits taken skipped held left e hfront hback =>
    have hfits : ofDigits (taken ++ skipped ++ (held ++ left)) < 2 ^ 64 := hfits
    obtain rfl := hfront.left_eq_nil (Nat.lt_of_le_of_lt (ofDigits_le_append _ _) hfits)
    rw [List.append_nil] at hfits
    obtain rfl := hback.left_eq_nil hfits
    simp [Parts.decimal]

/-- **A numeral with few digits and a small exponent** is read as the value that is nearest to
it. -/
theorem Parts.scales_iff_isNearest {negative : Bool} (hc : p.decimal.coefficient < 2 ^ 53)
    (he : p.decimal.exponent.natAbs ≤ 22) : (∃ d, p.Keeps d ∧ Binary64.Scales negative d x)
      ↔ x.IsNearest negative p.decimal.num p.decimal.den := by
  have hfits : p.decimal.coefficient < 2 ^ 64 := Nat.lt_trans hc (by decide)
  constructor
  · rintro ⟨d, hkeeps, hscales⟩
    obtain rfl := hkeeps.eq_decimal hfits
    exact hscales.isNearest hc he
  · intro hnearest
    obtain ⟨d, hkeeps⟩ := exists_keeps p
    obtain rfl := hkeeps.eq_decimal hfits
    obtain ⟨y, hy⟩ := Decimal.exists_scale?_of_exponent_lt negative hfits (by omega)
    have hscales := (Decimal.scale?_eq_some_iff hfits).mp hy
    -- there is only one value that is nearest
    have hden : 0 < p.decimal.den := Nat.pow_pos (by decide)
    rw [← hnearest.eq_ofRatio hden, (hscales.isNearest hc he).eq_ofRatio hden]
    exact ⟨_, hkeeps, hscales⟩

/-! ## Numerals that are not too great -/

/-- Only digits that are left out in front of the point make the exponent greater. -/
theorem Parts.Keeps.exponent_le (h : p.Keeps d) (hwhole : ofDigits p.whole < 2 ^ 64) :
    d.exponent ≤ p.exponent := by
  cases h with
  | digits hfront hback =>
    obtain rfl := hfront.left_eq_nil hwhole
    rw [List.length_nil]
    dsimp only
    omega

/-- What is kept is no more than what is spelled, if nothing is left out in front of the point. -/
theorem Parts.Keeps.mul_den_le (h : p.Keeps d) (hwhole : ofDigits p.whole < 2 ^ 64)
    (he : 0 ≤ d.exponent) :
    d.coefficient * 10 ^ d.exponent.toNat * p.decimal.den ≤ p.decimal.num := by
  cases h with
  | @digits taken skipped held left e hfront hback =>
    obtain rfl := hfront.left_eq_nil hwhole
    have hsplit : taken ++ [] ++ (held ++ left) = taken ++ held ++ left := by simp
    dsimp only at he ⊢
    simp only [List.length_nil] at he ⊢
    rw [Decimal.num_eq, Decimal.den_eq, Parts.decimal]
    dsimp only
    rw [hsplit, ofDigits_append (taken ++ held) left, List.length_append]
    generalize ofDigits (taken ++ held) = c
    have hexponent : (e + (0 : Nat) - held.length).toNat
        + (-(e - (held.length + left.length : Nat))).toNat
        = left.length + (e - (held.length + left.length : Nat)).toNat := by omega
    rw [Nat.mul_assoc, ← Nat.pow_add, hexponent, Nat.pow_add, ← Nat.mul_assoc]
    exact Nat.mul_le_mul_right _ (Nat.le_add_right _ _)

open Binary64 in
/-- Where a numeral is nearest to a value that is not one of the two greatest, scaling it finds a
value too. -/
theorem exists_value?_of_isNearest (hwhole : ofDigits n.whole < 2 ^ 64)
    (hnearest : x.IsNearest n.negative n.parts.decimal.num n.parts.decimal.den)
    (hx : x.word % 2 ^ 63 + 3 ≤ infinityWord) : ∃ y, n.value? = some y := by
  have hkeeps := keeps_iff.mpr (Eq.refl n.kept)
  have hden : 0 < n.parts.decimal.den := Nat.pow_pos (by decide)
  refine Decimal.exists_scale?_of_le n.negative hkeeps.coefficient_lt fun he => ?_
  have hkept := hkeeps.mul_den_le hwhole he
  have hmiddle := hnearest.nearest.le_middle hden
  refine Nat.le_of_mul_le_mul_right (Nat.le_trans ?_ (Nat.le_trans hmiddle ?_)) hden
  · rw [Nat.mul_assoc, Nat.mul_right_comm _ unitsPerOne]
    exact Nat.mul_le_mul_left 2 (Nat.mul_le_mul_right unitsPerOne hkept)
  · exact Nat.mul_le_mul_right _ (middleUnits_le_roomUnits hx)

end Kept

end SolidScript.Json
