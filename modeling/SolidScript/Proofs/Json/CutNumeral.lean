import SolidScript.Proofs.Json.Cut

/-!
# Numerals cut short

The start of a numeral is a numeral, or else it ends where a digit must come. So a number that is
cut short runs out (`runsOut_numberValue`). What remains of a number is not always smaller than the
number: from `1e-300` one gets `1e-30` and `1`. But it has sixteen digits at most in front of its
point and two in its exponent (`Numeral.IsShort`), so it is never refused for its size.
-/

namespace SolidScript.Json

/-! ## The parts of a numeral -/

/-- The mark of an exponent, its sign and its digits. -/
def exponentText : Option Int → Text
  | none => []
  | some e => 'e' :: (if e < 0 then '-' else '+') :: digits e.natAbs

/-- A point and the digits behind it. -/
def fractionText (fraction : Text) : Text := if fraction = [] then [] else '.' :: fraction

/-- The parts of a numeral as a document spells them: some digits in front of the point, with no
zero that is not needed, any number of digits behind it, and maybe an exponent of three digits. -/
structure Spelling where
  whole : Text
  fraction : Text
  exponent : Option Int
  isDigit_whole : ∀ c ∈ whole, c.isDigit = true
  whole_ne_nil : whole ≠ []
  zero_alone : whole.head? = some '0' → whole.length = 1
  length_whole : whole.length ≤ 16
  isDigit_fraction : ∀ c ∈ fraction, c.isDigit = true
  exponent_lt : ∀ e ∈ exponent, e < 1000

def Spelling.text (s : Spelling) : Text :=
  s.whole ++ (fractionText s.fraction ++ exponentText s.exponent)

/-- A numeral that is too short to be too great. -/
structure Numeral.IsShort (n : Numeral) : Prop where
  isDigit_whole : ∀ c ∈ n.whole, c.isDigit = true
  length_whole : n.whole.length ≤ 16
  exponent_lt : n.exponent < 100

theorem Numeral.IsShort.exists_value? {n : Numeral} (h : n.IsShort) : ∃ x, n.value? = some x := by
  have hkeeps := keeps_iff.mpr (Eq.refl n.kept)
  have hwhole := ofDigits_lt_of_length_le h.isDigit_whole h.length_whole
  exact Decimal.exists_scale?_of_exponent_lt n.negative hkeeps.coefficient_lt
    (Int.lt_of_le_of_lt (hkeeps.exponent_le hwhole) h.exponent_lt)

/-! ## Parts cut short -/

/-- An exponent with at most two digits, if it is positive. -/
def IsShortExponent (exponent : Option Int) : Prop := exponent.getD 0 < 100

section Parts

variable {p ds : Text}

theorem someDigits_of_isPrefix (hds : ∀ c ∈ ds, c.isDigit = true) (h : p <+: ds) :
    (p = [] ∧ someDigits p = .error .truncated) ∨ (p ≠ [] ∧ someDigits p = .ok (p, [])) := by
  by_cases hp : p = []
  · rw [hp]
    exact Or.inl ⟨rfl, rfl⟩
  · have hread := someDigits_append (fun c hc => hds c (h.subset hc)) hp (r := []) nofun
    rw [List.append_nil] at hread
    exact Or.inr ⟨hp, hread⟩

theorem runsOut_exponentPart_nil : RunsOut IsShortExponent (exponentPart []) :=
  Or.inr ⟨none, rfl, show (0 : Int) < 100 by decide⟩

/-- An exponent that is cut short is less than a tenth of what it was. -/
theorem runsOut_exponentPart {e : Int} (he : e < 1000) (h : IsCut p (exponentText (some e))) :
    RunsOut IsShortExponent (exponentPart p) := by
  rcases h.cons_cases with rfl | ⟨q, rfl, hq⟩
  · exact runsOut_exponentPart_nil
  rcases hq.cons_cases with rfl | ⟨r, rfl, hr⟩
  · exact Or.inl rfl
  have hsign : (if e < 0 then '-' else '+') = '+' ∨ (if e < 0 then '-' else '+') = '-' := by
    split
    · exact Or.inr rfl
    · exact Or.inl rfl
  rcases someDigits_of_isPrefix (fun _ => isDigit_of_mem_digits) hr.isPrefix with
    ⟨-, hread⟩ | ⟨-, hread⟩
  · refine Or.inl ?_
    rw [exponentPart, if_pos (Or.inl rfl), signedExponent, if_pos hsign, hread]
  have hten : 10 * ofDigits r ≤ e.natAbs := by
    obtain ⟨c, s, hs⟩ := hr
    have hvalue := ofDigits_append r (c :: s)
    rw [hs, ofDigits_digits, List.length_cons, Nat.pow_succ'] at hvalue
    have hpos : 0 < 10 ^ s.length := Nat.pow_pos (by decide)
    calc 10 * ofDigits r ≤ ofDigits r * (10 * 10 ^ s.length) := by
          rw [Nat.mul_comm]
          exact Nat.mul_le_mul_left _ (Nat.le_mul_of_pos_right 10 hpos)
      _ ≤ e.natAbs := by omega
  refine Or.inr ⟨some (if (if e < 0 then '-' else '+') = '-' then -(ofDigits r : Int)
    else ofDigits r), ?_, ?_⟩
  · rw [exponentPart, if_pos (Or.inl rfl), signedExponent, if_pos hsign, hread]
  · rw [IsShortExponent, Option.getD_some]
    by_cases hneg : e < 0
    · rw [if_pos hneg, if_pos rfl]
      omega
    · rw [if_neg hneg, if_neg (by decide)]
      omega

end Parts

section Numerals

variable (s : Spelling) {p : Text}

/-- The exponent of a numeral is cut short, and there is one if any of it can be missing. -/
theorem Spelling.runsOut_exponent (h : IsCut p (exponentText s.exponent)) :
    RunsOut IsShortExponent (exponentPart p) ∧ ∀ c ∈ p.head?, c = 'e' := by
  cases hexponent : s.exponent with
  | none =>
    rw [hexponent] at h
    exact absurd h IsCut.not_nil
  | some e =>
    rw [hexponent] at h
    refine ⟨runsOut_exponentPart (s.exponent_lt e hexponent) h, ?_⟩
    rcases h.cons_cases with rfl | ⟨q, rfl, -⟩
    · nofun
    · rintro c ⟨⟩
      rfl

/-- Behind the digits in front, either the text ends where a digit must come, or a fraction is read
and an exponent runs out. -/
theorem Spelling.fractionDigits_cut
    (h : IsCut p (fractionText s.fraction ++ exponentText s.exponent)) :
    fractionDigits p = .error .truncated
      ∨ ∃ fraction r, fractionDigits p = .ok (fraction, r)
        ∧ RunsOut IsShortExponent (exponentPart r) := by
  by_cases hnil : s.fraction = []
  · rw [fractionText, if_pos hnil, List.nil_append] at h
    obtain ⟨hruns, hhead⟩ := s.runsOut_exponent h
    refine Or.inr ⟨[], p, fractionDigits_none fun c hc => ?_, hruns⟩
    rw [hhead c hc]
    decide
  rw [fractionText, if_neg hnil] at h
  rcases h.append_cases with hpoint | ⟨q, rfl, hq⟩
  · rcases hpoint.cons_cases with rfl | ⟨f, rfl, hf⟩
    · exact Or.inr ⟨[], [], rfl, runsOut_exponentPart_nil⟩
    rw [fractionDigits, if_pos rfl]
    rcases someDigits_of_isPrefix s.isDigit_fraction hf.isPrefix with ⟨-, hread⟩ | ⟨-, hread⟩
    · exact Or.inl hread
    · exact Or.inr ⟨f, [], hread, runsOut_exponentPart_nil⟩
  · obtain ⟨hruns, hhead⟩ := s.runsOut_exponent hq
    refine Or.inr ⟨s.fraction, q, fractionDigits_point s.isDigit_fraction hnil fun c hc => ?_,
      hruns⟩
    rw [hhead c hc]
    rfl

/-- A start of the digits in front of the point is a numeral. -/
theorem Spelling.wholeDigits_cut (h : IsCut p s.whole) (hp : p ≠ []) :
    wholeDigits p = .ok (p, []) := by
  have hdigits : ∀ c ∈ p, c.isDigit = true := fun c hc => s.isDigit_whole c (h.isPrefix.subset hc)
  -- a zero in front is all there is in front, and nothing is cut off it
  have hzero : p.head? = some '0' → p.length = 1 := by
    intro hhead
    obtain ⟨r, hr⟩ := h.isPrefix
    have hone := s.zero_alone (by rw [← hr, List.head?_append, hhead, Option.some_or])
    have hlength := h.length_lt
    have hpos := List.length_pos_iff.mpr hp
    omega
  have hread := wholeDigits_append hdigits hp hzero (r := []) nofun
  rwa [List.append_nil] at hread

/-- No digit stands behind the digits in front. -/
theorem Spelling.isDigitsEnd :
    IsDigitsEnd (fractionText s.fraction ++ exponentText s.exponent) := by
  rw [fractionText]
  split
  · cases s.exponent with
    | none => nofun
    | some e => exact isDigitsEnd_cons rfl _
  · exact isDigitsEnd_cons rfl _

/-- The start of a numeral without a sign. -/
theorem Spelling.runsOut_unsignedNumeral (negative : Bool) (h : IsCut p s.text) :
    RunsOut Numeral.IsShort (unsignedNumeral negative p) := by
  have hshort := s.length_whole
  rcases h.append_cases with hwhole | ⟨q, rfl, hq⟩
  · by_cases hp : p = []
    · rw [hp]
      exact Or.inl rfl
    have hlength := hwhole.length_lt
    refine Or.inr ⟨⟨negative, p, [], 0, true⟩, ?_, ?_⟩
    · rw [unsignedNumeral, s.wholeDigits_cut hwhole hp]
      rfl
    · exact ⟨fun c hc => s.isDigit_whole c (hwhole.isPrefix.subset hc),
        Nat.le_trans (Nat.le_of_lt hlength) hshort, show (0 : Int) < 100 by decide⟩
  · have hend : IsDigitsEnd q := fun c hc => s.isDigitsEnd c (hq.mem_head? hc)
    have hread := wholeDigits_append s.isDigit_whole s.whole_ne_nil s.zero_alone hend
    rcases s.fractionDigits_cut hq with hf | ⟨fraction, r, hf, hruns⟩
    · refine Or.inl ?_
      rw [unsignedNumeral, hread]
      simp only [hf]
    rcases hruns with he | ⟨exponent, he, hexponent⟩
    · refine Or.inl ?_
      rw [unsignedNumeral, hread]
      simp only [hf, he]
    · refine Or.inr ⟨⟨negative, s.whole, fraction, exponent.getD 0,
        fraction = [] ∧ exponent = none⟩, ?_, s.isDigit_whole, hshort, hexponent⟩
      rw [unsignedNumeral, hread]
      simp only [hf, he]

end Numerals

/-! ## What a document writes -/

section LayOut

variable {ds : Text} (hds : ∀ c ∈ ds, c.isDigit = true) (hne : ds ≠ [])
  (hhead : ds.head? ≠ some '0')

include hds hne hhead

theorem exists_text_eq_place {e : Int} (he : e ≤ 15) :
    ∃ s : Spelling, Style.document.place ds e = s.text := by
  have hzeros : ∀ n, ∀ c ∈ Style.zeros n, c.isDigit = true := fun _ _ => isDigit_of_mem_zeros
  have hzero : ∀ c ∈ ['0'], c.isDigit = true := by simp
  rw [Style.place]
  split
  · refine ⟨⟨['0'], Style.zeros (-e - 1).toNat ++ ds, none, hzero, by simp, by simp, by simp,
      isDigit_of_mem_append (hzeros _) hds, by simp⟩, ?_⟩
    simp [Spelling.text, fractionText, exponentText, hne]
  split
  next hlong =>
    have hstart : (ds ++ Style.zeros (e.toNat + 1 - ds.length)).head? ≠ some '0' := by
      rwa [List.head?_append, List.head?_eq_some_head hne, Option.some_or,
        ← List.head?_eq_some_head hne]
    have hlength : (ds ++ Style.zeros (e.toNat + 1 - ds.length)).length ≤ 16 := by
      rw [List.length_append, Style.zeros, List.length_replicate]
      omega
    refine ⟨⟨ds ++ Style.zeros (e.toNat + 1 - ds.length), ['0'], none,
      isDigit_of_mem_append hds (hzeros _), by simp [hne], fun h => absurd h hstart, hlength,
      hzero, by simp⟩, ?_⟩
    simp [Spelling.text, fractionText, exponentText, Style.document]
  next hshort =>
    have hstart : (ds.take (e.toNat + 1)).head? ≠ some '0' := by
      rwa [List.head?_take, if_neg (Nat.succ_ne_zero _)]
    refine ⟨⟨ds.take (e.toNat + 1), ds.drop (e.toNat + 1), none,
      fun c h => hds c (List.mem_of_mem_take h), by simp [hne], fun h => absurd h hstart,
      by rw [List.length_take]; omega, fun c h => hds c (List.mem_of_mem_drop h), by simp⟩, ?_⟩
    have hrest : ds.drop (e.toNat + 1) ≠ [] := by
      rw [Ne, List.drop_eq_nil_iff]
      exact hshort
    rw [Spelling.text, fractionText, if_neg hrest, exponentText, List.append_nil]

omit hhead in
theorem exists_text_eq_scientific {e : Int} (he : e < 1000) :
    ∃ s : Spelling, Style.scientific ds e = s.text := by
  have hone : (ds.take 1).length = 1 := by
    have := List.length_pos_iff.mpr hne
    rw [List.length_take]
    omega
  refine ⟨⟨ds.take 1, ds.drop 1, some e, fun c h => hds c (List.mem_of_mem_take h), by simp [hne],
    fun _ => hone, by omega, fun c h => hds c (List.mem_of_mem_drop h), ?_⟩, ?_⟩
  · rintro _ ⟨⟩
    exact he
  · have hpoint : (if ds.length ≤ 1 then [] else '.' :: ds.drop 1) = fractionText (ds.drop 1) := by
      simp only [fractionText, List.drop_eq_nil_iff]
    rw [Style.scientific, hpoint, Spelling.text, exponentText, List.append_assoc]

end LayOut

/-- The leading digit of a finite value is not that of 10^311 or more. -/
theorem leading_le {x : Binary64} (h : x.isFinite = true) (hzero : x.isZero = false) :
    (x.stripped .toEven).exponent + (digits (x.stripped .toEven).coefficient).length - 1
      ≤ 310 := by
  have hround := Binary64.round_stripped .toEven h
  have hne := Binary64.coefficient_stripped_ne_zero .toEven h hzero
  generalize x.stripped .toEven = d at hround hne ⊢
  obtain ⟨c, e⟩ := d
  dsimp only at hne ⊢
  have hlength : 0 < (digits c).length := List.length_pos_iff.mpr (digits_ne_nil c)
  refine Int.not_lt.mp fun hlt => ?_
  have hinfinite := Decimal.isInfinite_round x.isNegative (pow_pred_length_le hne) (e := e)
    (by omega)
  rw [hround, Binary64.isInfinite_eq_false h] at hinfinite
  cases hinfinite

/-- The magnitude of a finite value is spelled as it should be. -/
theorem exists_text_eq_magnitude {x : Binary64} (h : x.isFinite = true) :
    ∃ s : Spelling, Style.document.magnitude x = s.text := by
  rw [Style.magnitude]
  split
  next =>
    have hzero : ∀ c ∈ ['0'], c.isDigit = true := by simp
    exact ⟨⟨['0'], ['0'], none, hzero, by simp, by simp, by simp, hzero, by simp⟩, rfl⟩
  next hzero =>
    have hzero : x.isZero = false := by simpa using hzero
    have hds : ∀ c ∈ digits (x.stripped .toEven).coefficient, c.isDigit = true :=
      fun _ => isDigit_of_mem_digits
    have hne := digits_ne_nil (x.stripped .toEven).coefficient
    have hhead := head?_digits_ne_zero (Binary64.coefficient_stripped_ne_zero .toEven h hzero)
    have hleading := leading_le h hzero
    show ∃ s : Spelling, Style.document.layOut (x.stripped .toEven) = s.text
    rw [Style.layOut]
    split
    next hplace =>
      simp only [Style.document, Bool.and_eq_true, decide_eq_true_eq] at hplace
      exact exists_text_eq_place hds hne hhead hplace.2
    next => exact exists_text_eq_scientific hds hne (by omega)

/-! ## Numbers cut short -/

section Numbers

variable {x : Binary64} (h : x.isFinite = true) {p : Text}
  (hp : IsCut p (Style.document.write x))

include h hp

theorem runsOut_numeral : RunsOut Numeral.IsShort (numeral p) := by
  obtain ⟨s, hs⟩ := exists_text_eq_magnitude h
  rw [write_of_isFinite Style.document h, hs] at hp
  cases hx : x.isNegative with
  | true =>
    rw [hx, if_pos rfl] at hp
    rcases hp.cons_cases with rfl | ⟨q, rfl, hq⟩
    · exact Or.inl rfl
    · rw [numeral, if_pos rfl]
      exact s.runsOut_unsignedNumeral true hq
  | false =>
    rw [hx, if_neg Bool.false_ne_true] at hp
    cases p with
    | nil => exact Or.inl rfl
    | cons c q =>
      -- the first character is a digit
      have hc : c.isDigit = true := by
        obtain ⟨d, ds, hwhole⟩ := List.exists_cons_of_ne_nil s.whole_ne_nil
        have hmem : c ∈ s.text.head? := hp.mem_head? rfl
        rw [Spelling.text, hwhole] at hmem
        have hdigit := s.isDigit_whole d (hwhole ▸ List.mem_cons_self)
        rwa [← Option.some.inj hmem]
      rw [numeral, if_neg (by rintro rfl; cases hc)]
      exact s.runsOut_unsignedNumeral false hp

theorem runsOut_numberValue : RunsOut (fun _ => True) (numberValue p) := by
  rcases runsOut_numeral h hp with herror | ⟨n, hok, hshort⟩
  · refine Or.inl ?_
    rw [numberValue, herror]
  · obtain ⟨y, hy⟩ := hshort.exists_value?
    refine Or.inr ⟨y, ?_, trivial⟩
    rw [numberValue, hok]
    simp only [hy]

/-- **A number that is cut short runs out**, and is not mistaken for anything else. -/
theorem runsOut_readNumber (fuel : Nat) (expected : Text) :
    RunsOut (fun _ => True) (readNumber fuel expected p) := by
  cases p with
  | nil => exact Or.inl rfl
  | cons c q =>
    -- the text starts as the whole number does, and that is read as a number
    have hread := numberValue_write h isNumeralEnd_nil
    obtain ⟨r, hr⟩ := hp.isPrefix
    rw [List.append_nil, ← hr] at hread
    rw [readNumber_of_start fuel expected (start_of_numberValue hread)]
    exact runsOut_numberValue h hp

end Numbers

end SolidScript.Json
