import SolidScript.Proofs.Json.Grammar
import SolidScript.Proofs.Json.Tokens

/-!
# Lexemes by the grammar

Every reader of a lexeme finds what the grammar says, and it finds everything that the grammar says:
escapes and strings (`stringBody_sound`, `StringTail.stringBody_eq`), strings that are skipped
(`skipString_sound`, `RawTail.skipString_eq`) and numerals (`numeral_sound`,
`IsNumeral.exists_numeral_eq`). Readers of digits go as far as there are digits, so what they find
is asked for in front of a text that does not go on with a numeral.
-/

namespace SolidScript.Json

/-! ## Blanks -/

section Blanks

variable {t u r : Text}

theorem blanks_refl (t : Text) : Blanks t t := ⟨[], rfl, rfl⟩

theorem blanks_skipBlanks (t : Text) : Blanks t (skipBlanks t) :=
  ⟨t.takeWhile isBlank, List.all_takeWhile, List.takeWhile_append_dropWhile.symm⟩

theorem Blanks.length_le (h : Blanks t r) : r.length ≤ t.length := by
  obtain ⟨bs, -, rfl⟩ := h
  rw [List.length_append]
  omega

theorem Blanks.skipBlanks_eq (h : Blanks t r) : skipBlanks t = skipBlanks r := by
  obtain ⟨bs, hbs, rfl⟩ := h
  exact skipBlanks_append hbs

theorem Blanks.skipBlanks_cons {c : Char} (h : Blanks t (c :: r)) (hc : isBlank c = false) :
    skipBlanks t = c :: r := by
  rw [h.skipBlanks_eq, Json.skipBlanks_cons hc]

/-- What is left is the first character that is not blank, and what follows it. -/
theorem blanks_cons_iff {c : Char} (hc : isBlank c = false) :
    Blanks t (c :: r) ↔ skipBlanks t = c :: r := by
  constructor
  · exact fun h => h.skipBlanks_cons hc
  · intro h
    rw [← h]
    exact blanks_skipBlanks t

theorem blanks_of_skipBlanks_eq (h : skipBlanks t = r) : Blanks t r := h ▸ blanks_skipBlanks t

theorem Gap.length_le {first : Bool} (h : Gap first t r) : r.length ≤ t.length := by
  cases first with
  | true => exact Blanks.length_le h
  | false =>
    obtain ⟨u, hcomma, hblank⟩ := h
    have hlength := hcomma.length_le
    rw [List.length_cons] at hlength
    exact Nat.le_trans hblank.length_le (by omega)

end Blanks

theorem map_eq_ok_iff {α β ε : Type} {f : α → β} {x : Except ε α} {b : β} :
    x.map f = .ok b ↔ ∃ a, x = .ok a ∧ f a = b := by
  cases x with
  | error e => simp [Except.map]
  | ok a => simp [Except.map]

/-! ## Words and colons -/

theorem expectWord_eq_ok_iff {w t r : Text} : expectWord w t = .ok r ↔ t = w ++ r := by
  induction w generalizing t with
  | nil => simp [expectWord]
  | cons c w ih =>
    cases t with
    | nil => simp [expectWord]
    | cons d t =>
      rw [expectWord, List.cons_append, List.cons.injEq]
      split
      next h => rw [ih, eq_comm (a := d)]; exact (and_iff_right h).symm
      next h =>
        constructor
        · intro herror
          cases herror
        · rintro ⟨hd, -⟩
          exact absurd hd.symm h

theorem expectColon_eq_ok_iff {t r : Text} : expectColon t = .ok r ↔ Blanks t (':' :: r) := by
  rw [blanks_cons_iff rfl, expectColon]
  cases skipBlanks t with
  | nil => simp
  | cons c u => by_cases hc : c = ':' <;> simp [hc]

/-! ## Escapes -/

theorem hexUnit_eq_ok_iff {t r : Text} {n : Nat} : hexUnit t = .ok (n, r) ↔ HexUnit t n r := by
  constructor
  · intro h
    unfold hexUnit at h
    split at h
    next a b c d u =>
      split at h
      next va vb vc vd ha hb hc hd =>
        cases h
        exact ⟨a, b, c, d, va, vb, vc, vd, rfl, ha, hb, hc, hd, by omega⟩
      next => cases h
    next => split at h <;> cases h
  · rintro ⟨a, b, c, d, va, vb, vc, vd, rfl, ha, hb, hc, hd, rfl⟩
    simp only [hexUnit, ha, hb, hc, hd]
    congr 2
    omega

theorem HexUnit.shorter {t r : Text} {n : Nat} (h : HexUnit t n r) : r.length < t.length := by
  obtain ⟨a, b, c, d, -, -, -, -, rfl, -⟩ := h
  simp only [List.length_cons]
  omega

theorem mem_escapes_iff {e c : Char} : (e, c) ∈ escapes ↔ shortEscape? e = some c := by
  constructor
  · intro h
    simp only [escapes, List.mem_cons, Prod.mk.injEq, List.not_mem_nil, or_false] at h
    rcases h with ⟨rfl, rfl⟩ | ⟨rfl, rfl⟩ | ⟨rfl, rfl⟩ | ⟨rfl, rfl⟩ | ⟨rfl, rfl⟩ | ⟨rfl, rfl⟩
      | ⟨rfl, rfl⟩ | ⟨rfl, rfl⟩ <;> rfl
  · intro h
    unfold shortEscape? at h
    split at h <;> cases h <;> decide

theorem isHighHalf_iff {n : Nat} : isHighHalf n = true ↔ IsHigh n := by
  simp only [isHighHalf, IsHigh, Bool.and_eq_true, decide_eq_true_eq]
  omega

theorem isLowHalf_iff {n : Nat} : isLowHalf n = true ↔ IsLow n := by
  simp only [isLowHalf, IsLow, Bool.and_eq_true, decide_eq_true_eq]
  omega

/-- A second half stands behind a backslash and a letter of its own. -/
theorem unicodeEscape_sound {t r : Text} {c : Char} (h : unicodeEscape t = .ok (c, r)) :
    Escape ('u' :: t) c r := by
  rw [unicodeEscape] at h
  split at h
  next => cases h
  next m u hunit =>
    have hm := hexUnit_eq_ok_iff.mp hunit
    by_cases hlow : isLowHalf m = true
    · rw [if_pos hlow] at h
      cases h
    by_cases hhigh : isHighHalf m = true
    · rw [if_neg hlow, if_pos hhigh] at h
      rcases u with _ | ⟨back, _ | ⟨letter, v⟩⟩
      · cases h
      · by_cases hback : back = '\\' <;> simp [hback] at h
      · by_cases hback : back = '\\'
        · by_cases hletter : letter = 'u'
          · subst hback hletter
            simp only [ne_eq, not_true_eq_false, if_false] at h
            split at h
            next => cases h
            next n r' hunit' =>
              split at h
              next hlow' =>
                injection h with h
                injection h with hc hr
                rw [← hc, ← hr, combineHalves]
                exact .pair hm (hexUnit_eq_ok_iff.mp hunit') (isHighHalf_iff.mp hhigh)
                  (isLowHalf_iff.mp hlow')
              next => cases h
          · simp [hback, hletter] at h
        · simp [hback] at h
    · rw [if_neg hlow, if_neg hhigh] at h
      cases h
      exact .unit hm (mt isHighHalf_iff.mpr hhigh) (mt isLowHalf_iff.mpr hlow)

theorem escape_sound {t r : Text} {c : Char} (h : escape t = .ok (c, r)) : Escape t c r := by
  cases t with
  | nil => cases h
  | cons e t =>
    rw [escape] at h
    split at h
    next hu =>
      subst hu
      exact unicodeEscape_sound h
    next hu =>
      split at h
      next e' he =>
        cases h
        exact .letter (mem_escapes_iff.mpr he)
      next => cases h

theorem Escape.escape_eq {t r : Text} {c : Char} (h : Escape t c r) : escape t = .ok (c, r) := by
  cases h with
  | @letter e _ _ h =>
    have hu : e ≠ 'u' := by
      rintro rfl
      exact absurd (mem_escapes_iff.mp h) (by simp [shortEscape?])
    rw [Json.escape, if_neg hu, mem_escapes_iff.mp h]
  | @unit t _ n h hhigh hlow =>
    rw [← isHighHalf_iff, Bool.not_eq_true] at hhigh
    rw [← isLowHalf_iff, Bool.not_eq_true] at hlow
    rw [Json.escape, if_pos rfl, unicodeEscape, hexUnit_eq_ok_iff.mpr h]
    simp [hhigh, hlow]
  | @pair t u _ m n h h' hhigh hlow =>
    have hfirst : isLowHalf m = false := by
      rw [← Bool.not_eq_true, isLowHalf_iff]
      exact fun hlow' => absurd hlow'.1 (Nat.not_le_of_lt hhigh.2)
    rw [Json.escape, if_pos rfl, unicodeEscape, hexUnit_eq_ok_iff.mpr h]
    simp [hfirst, isHighHalf_iff.mpr hhigh, hexUnit_eq_ok_iff.mpr h', isLowHalf_iff.mpr hlow,
      combineHalves]

theorem Escape.shorter {t r : Text} {c : Char} (h : Escape t c r) : r.length < t.length := by
  cases h with
  | letter => exact Nat.lt_succ_self _
  | unit h =>
    have hlength := h.shorter
    rw [List.length_cons]
    omega
  | pair h h' =>
    have hlength := h.shorter
    have hlength' := h'.shorter
    simp only [List.length_cons] at hlength ⊢
    omega

/-! ## Strings -/

theorem stringFrom_sound {fuel : Nat} {done t s r : Text}
    (h : stringFrom fuel done t = .ok (s, r)) :
    ∃ rest, s = done.reverse ++ rest ∧ StringTail t rest r := by
  induction fuel generalizing done t with
  | zero => cases h
  | succ fuel ih =>
    cases t with
    | nil => cases h
    | cons c t =>
      rw [stringFrom] at h
      split at h
      next hquote =>
        cases h
        subst hquote
        exact ⟨[], (List.append_nil _).symm, .close r⟩
      next hquote =>
        split at h
        next hback =>
          subst hback
          split at h
          next => cases h
          next e u hescape =>
            obtain ⟨rest, rfl, hrest⟩ := ih h
            exact ⟨e :: rest, by simp, .escape (escape_sound hescape) hrest⟩
        next hback =>
          split at h
          next => cases h
          next hvisible =>
            obtain ⟨rest, rfl, hrest⟩ := ih h
            exact ⟨c :: rest, by simp, .plain hquote hback (by omega) hrest⟩

theorem StringTail.stringFrom_eq {t s r : Text} (h : StringTail t s r) {fuel : Nat}
    (hfuel : t.length < fuel) (done : Text) :
    stringFrom fuel done t = .ok (done.reverse ++ s, r) := by
  induction h generalizing fuel done with
  | close r =>
    obtain ⟨fuel, rfl⟩ := exists_fuel_eq hfuel
    rw [stringFrom, if_pos rfl, List.append_nil]
  | plain hquote hback hvisible _ ih =>
    obtain ⟨fuel, rfl⟩ := exists_fuel_eq hfuel
    rw [List.length_cons] at hfuel
    rw [stringFrom, if_neg hquote, if_neg hback, if_neg (Nat.not_lt_of_le hvisible),
      ih (by omega)]
    simp
  | escape h _ ih =>
    obtain ⟨fuel, rfl⟩ := exists_fuel_eq hfuel
    have hlength := h.shorter
    rw [List.length_cons] at hfuel
    rw [stringFrom, if_neg (by decide), if_pos rfl, h.escape_eq]
    simp only
    rw [ih (by omega)]
    simp

theorem stringBody_sound {fuel : Nat} {t s r : Text} (h : stringBody fuel t = .ok (s, r)) :
    StringTail t s r := by
  obtain ⟨rest, rfl, hrest⟩ := stringFrom_sound h
  exact hrest

theorem StringTail.stringBody_eq {t s r : Text} (h : StringTail t s r) {fuel : Nat}
    (hfuel : t.length < fuel) : stringBody fuel t = .ok (s, r) :=
  h.stringFrom_eq hfuel []

theorem StringTail.shorter {t s r : Text} (h : StringTail t s r) : r.length < t.length := by
  induction h with
  | close r => exact Nat.lt_succ_self _
  | plain _ _ _ _ ih =>
    rw [List.length_cons]
    omega
  | escape h _ ih =>
    have hlength := h.shorter
    rw [List.length_cons]
    omega

theorem skipString_sound {fuel : Nat} {t r : Text} (h : skipString fuel t = .ok r) :
    RawTail t r := by
  induction fuel generalizing t with
  | zero => cases h
  | succ fuel ih =>
    cases t with
    | nil => cases h
    | cons c t =>
      unfold skipString at h
      split at h
      next hquote =>
        cases h
        subst hquote
        exact .close r
      next hquote =>
        split at h
        next hback =>
          subst hback
          split at h
          next => cases h
          next e u =>
            split at h
            next hu =>
              subst hu
              split at h
              next => cases h
              next n v hunit => exact .unit (hexUnit_eq_ok_iff.mp hunit) (ih h)
            next hu =>
              split at h
              next hletter =>
                obtain ⟨c, hc⟩ := Option.isSome_iff_exists.mp hletter
                exact .letter (mem_escapes_iff.mpr hc) (ih h)
              next => cases h
        next hback =>
          split at h
          next => cases h
          next hvisible => exact .plain hquote hback (by omega) (ih h)

theorem RawTail.skipString_eq {t r : Text} (h : RawTail t r) {fuel : Nat}
    (hfuel : t.length < fuel) : skipString fuel t = .ok r := by
  induction h generalizing fuel with
  | close r =>
    obtain ⟨fuel, rfl⟩ := exists_fuel_eq hfuel
    unfold skipString
    exact if_pos rfl
  | plain hquote hback hvisible _ ih =>
    obtain ⟨fuel, rfl⟩ := exists_fuel_eq hfuel
    rw [List.length_cons] at hfuel
    unfold skipString
    rw [if_neg hquote, if_neg hback, if_neg (Nat.not_lt_of_le hvisible), ih (by omega)]
  | @letter e c t r h _ ih =>
    obtain ⟨fuel, rfl⟩ := exists_fuel_eq hfuel
    simp only [List.length_cons] at hfuel
    have hletter := mem_escapes_iff.mp h
    have hu : e ≠ 'u' := by
      rintro rfl
      exact absurd hletter (by simp [shortEscape?])
    simp [skipString, hu, hletter, ih (show t.length < fuel by omega)]
  | unit h _ ih =>
    obtain ⟨fuel, rfl⟩ := exists_fuel_eq hfuel
    have hlength := h.shorter
    simp only [List.length_cons] at hfuel
    have hrest : skipString fuel _ = .ok _ := ih (by omega)
    simp [skipString, hexUnit_eq_ok_iff.mpr h, hrest]

theorem RawTail.shorter {t r : Text} (h : RawTail t r) : r.length < t.length := by
  induction h with
  | close r => exact Nat.lt_succ_self _
  | plain _ _ _ _ ih =>
    rw [List.length_cons]
    omega
  | letter _ _ ih =>
    simp only [List.length_cons]
    omega
  | unit h _ ih =>
    have hlength := h.shorter
    simp only [List.length_cons]
    omega

/-! ## Numerals -/

theorem Digits.shorter {t ds r : Text} (h : Digits t ds r) : r.length < t.length := by
  have hpos := List.length_pos_iff.mpr h.ne_nil
  rw [h.eq, List.length_append]
  omega

theorem someDigits_sound {t ds r : Text} (h : someDigits t = .ok (ds, r)) : Digits t ds r := by
  have hne : takeDigits t ≠ [] := by
    intro hnil
    unfold someDigits at h
    rw [hnil] at h
    cases t <;> cases h
  have hread : someDigits t = .ok (takeDigits t, dropDigits t) := by
    unfold someDigits
    split
    next hnil => exact absurd hnil hne
    next hnil => exact absurd hnil hne
    next => rfl
  rw [hread] at h
  cases h
  exact ⟨hne, List.all_eq_true.mp List.all_takeWhile, List.takeWhile_append_dropWhile.symm⟩

theorem Digits.someDigits_eq {t ds r : Text} (h : Digits t ds r) (hr : IsDigitsEnd r) :
    someDigits t = .ok (ds, r) := by
  rw [h.eq, someDigits_append h.isDigit h.ne_nil hr]

theorem wholeDigits_sound {t ds r : Text} (h : wholeDigits t = .ok (ds, r)) :
    Digits t ds r ∧ (ds.head? = some '0' → ds = ['0']) := by
  rw [wholeDigits] at h
  split at h
  next => cases h
  next ds' r' hdigits =>
    split at h
    next => cases h
    next hzero =>
      cases h
      refine ⟨someDigits_sound hdigits, fun hhead => ?_⟩
      obtain ⟨c, rfl⟩ := List.length_eq_one_iff.mp (by simpa [hhead] using hzero)
      rw [Option.some.inj hhead]

theorem Digits.wholeDigits_eq {t ds r : Text} (h : Digits t ds r)
    (hzero : ds.head? = some '0' → ds = ['0']) (hr : IsDigitsEnd r) :
    wholeDigits t = .ok (ds, r) := by
  rw [h.eq]
  exact wholeDigits_append h.isDigit h.ne_nil (fun hhead => by rw [hzero hhead]; rfl) hr

theorem fractionDigits_sound {t ds r : Text} (h : fractionDigits t = .ok (ds, r)) :
    Fraction t ds r := by
  cases t with
  | nil =>
    cases h
    exact .none []
  | cons c t =>
    rw [fractionDigits] at h
    split at h
    next hpoint =>
      subst hpoint
      exact .some (someDigits_sound h)
    next =>
      cases h
      exact .none (c :: t)

theorem Fraction.fractionDigits_eq {t ds r : Text} (h : Fraction t ds r) (hr : IsDigitsEnd r)
    (hpoint : ∀ c ∈ r.head?, c ≠ '.') : fractionDigits t = .ok (ds, r) := by
  cases h with
  | none => exact fractionDigits_none hpoint
  | some h => rw [fractionDigits, if_pos rfl, h.someDigits_eq hr]

theorem Fraction.length_le {t ds r : Text} (h : Fraction t ds r) : r.length ≤ t.length := by
  cases h with
  | none => exact Nat.le_refl _
  | some h => exact Nat.le_of_lt (Nat.lt_succ_of_lt h.shorter)

theorem Fraction.isDigitsEnd {t ds r : Text} (h : Fraction t ds r) (hr : IsDigitsEnd r) :
    IsDigitsEnd t := by
  cases h with
  | none => exact hr
  | some h => exact isDigitsEnd_cons rfl _

theorem signedExponent_sound {mark : Char} {t r : Text} {e : Int}
    (hmark : mark = 'e' ∨ mark = 'E') (h : signedExponent t = .ok (e, r)) :
    Exponent (mark :: t) e r := by
  cases t with
  | nil => cases h
  | cons c t =>
    rw [signedExponent] at h
    split at h
    next => cases h
    next ds r' hdigits =>
      cases h
      by_cases hminus : c = '-'
      · subst hminus
        exact .minus hmark (someDigits_sound hdigits)
      by_cases hplus : c = '+'
      · subst hplus
        exact .plus hmark (someDigits_sound hdigits)
      · rw [if_neg (not_or.mpr ⟨hplus, hminus⟩)] at hdigits
        rw [if_neg hminus]
        exact .unsigned hmark (someDigits_sound hdigits)

theorem exponentPart_sound {t r : Text} {e : Option Int} (h : exponentPart t = .ok (e, r)) :
    Exponent t (e.getD 0) r := by
  cases t with
  | nil =>
    cases h
    exact .none []
  | cons c t =>
    rw [exponentPart] at h
    split at h
    next hmark =>
      split at h
      next => cases h
      next e' r' hsigned =>
        cases h
        exact signedExponent_sound hmark hsigned
    next =>
      cases h
      exact .none (c :: t)

theorem Exponent.exponentPart_eq {t r : Text} {e : Int} (h : Exponent t e r)
    (hr : IsNumeralEnd r) : ∃ e', exponentPart t = .ok (e', r) ∧ e'.getD 0 = e := by
  have hend := hr.isDigitsEnd
  cases h with
  | none => exact ⟨Option.none, exponentPart_none hr, rfl⟩
  | @unsigned mark u ds _ hmark h =>
    obtain ⟨d, ds', hds⟩ := List.exists_cons_of_ne_nil h.ne_nil
    have hread : signedExponent u = .ok ((ofDigits ds : Int), r) := by
      have hdigit : d.isDigit = true := h.isDigit d (hds ▸ List.mem_cons_self)
      have hu : u = d :: (ds' ++ r) := by rw [h.eq, hds, List.cons_append]
      have hplus : d ≠ '+' := fun heq => by rw [heq] at hdigit; cases hdigit
      have hminus : d ≠ '-' := fun heq => by rw [heq] at hdigit; cases hdigit
      have hdigits := h.someDigits_eq hend
      rw [hu] at hdigits ⊢
      rw [signedExponent, if_neg (not_or.mpr ⟨hplus, hminus⟩), hdigits]
      simp only [if_neg hminus]
    exact ⟨some (ofDigits ds), by rw [exponentPart, if_pos hmark, hread], rfl⟩
  | @plus mark u ds _ hmark h =>
    have hread : signedExponent ('+' :: u) = .ok ((ofDigits ds : Int), r) := by
      rw [signedExponent, if_pos (Or.inl rfl), h.someDigits_eq hend]
      rfl
    exact ⟨some (ofDigits ds), by rw [exponentPart, if_pos hmark, hread], rfl⟩
  | @minus mark u ds _ hmark h =>
    have hread : signedExponent ('-' :: u) = .ok (-(ofDigits ds : Int), r) := by
      rw [signedExponent, if_pos (Or.inr rfl), h.someDigits_eq hend]
      rfl
    exact ⟨some (-(ofDigits ds : Int)), by rw [exponentPart, if_pos hmark, hread], rfl⟩

theorem Exponent.length_le {t r : Text} {e : Int} (h : Exponent t e r) :
    r.length ≤ t.length := by
  cases h with
  | none => exact Nat.le_refl _
  | unsigned _ h => exact Nat.le_of_lt (Nat.lt_succ_of_lt h.shorter)
  | plus _ h => exact Nat.le_of_lt (Nat.lt_succ_of_lt (Nat.lt_succ_of_lt h.shorter))
  | minus _ h => exact Nat.le_of_lt (Nat.lt_succ_of_lt (Nat.lt_succ_of_lt h.shorter))

/-- What stands in front of an exponent goes on neither with digits nor with a point. -/
theorem Exponent.head {t r : Text} {e : Int} (h : Exponent t e r) (hr : IsNumeralEnd r) :
    ∀ c ∈ t.head?, c.isDigit = false ∧ c ≠ '.' := by
  have hmark {mark : Char} {u : Text} (hmark : mark = 'e' ∨ mark = 'E') :
      ∀ c ∈ (mark :: u).head?, c.isDigit = false ∧ c ≠ '.' := by
    rintro c ⟨⟩
    rcases hmark with rfl | rfl <;> exact ⟨rfl, by decide⟩
  cases h with
  | none => exact fun c hc => ⟨(hr c hc).1, (hr c hc).2.1⟩
  | unsigned h => exact hmark h
  | plus h => exact hmark h
  | minus h => exact hmark h

theorem unsignedNumeral_sound {negative : Bool} {t r : Text} {n : Numeral}
    (h : unsignedNumeral negative t = .ok (n, r)) :
    n.negative = negative ∧ IsUnsigned t n.parts r := by
  rw [unsignedNumeral] at h
  split at h
  next => cases h
  next whole u hwhole =>
    split at h
    next => cases h
    next fraction v hfraction =>
      split at h
      next => cases h
      next e r' hexponent =>
        cases h
        obtain ⟨hdigits, hzero⟩ := wholeDigits_sound hwhole
        exact ⟨rfl, .parts hdigits hzero (fractionDigits_sound hfraction)
          (exponentPart_sound hexponent)⟩

theorem IsUnsigned.exists_unsignedNumeral_eq {t r : Text} {p : Parts} (h : IsUnsigned t p r)
    (hr : IsNumeralEnd r) (negative : Bool) :
    ∃ n : Numeral, unsignedNumeral negative t = .ok (n, r) ∧ n.negative = negative
      ∧ n.parts = p := by
  cases h with
  | @parts u v _ whole fraction e hwhole hzero hfraction hexponent =>
    have hhead := hexponent.head hr
    have hend : IsDigitsEnd v := fun c hc => (hhead c hc).1
    obtain ⟨e', hread, rfl⟩ := hexponent.exponentPart_eq hr
    refine ⟨⟨negative, whole, fraction, e'.getD 0, fraction = [] ∧ e' = none⟩, ?_, rfl, rfl⟩
    rw [unsignedNumeral, hwhole.wholeDigits_eq hzero (hfraction.isDigitsEnd hend)]
    simp only [hfraction.fractionDigits_eq hend fun c hc => (hhead c hc).2, hread]

theorem numeral_sound {t r : Text} {n : Numeral} (h : numeral t = .ok (n, r)) :
    IsNumeral t n.negative n.parts r := by
  cases t with
  | nil => cases h
  | cons c t =>
    rw [numeral] at h
    split at h
    next hminus =>
      subst hminus
      obtain ⟨hsign, hunsigned⟩ := unsignedNumeral_sound h
      rw [hsign]
      exact .negative hunsigned
    next =>
      obtain ⟨hsign, hunsigned⟩ := unsignedNumeral_sound h
      rw [hsign]
      exact .positive hunsigned

/-- A numeral starts with a digit or with a minus sign. -/
theorem IsUnsigned.exists_cons {t r : Text} {p : Parts} (h : IsUnsigned t p r) :
    ∃ c u, t = c :: u ∧ c.isDigit = true := by
  cases h with
  | @parts u v _ whole fraction e hwhole =>
    obtain ⟨c, ds, rfl⟩ := List.exists_cons_of_ne_nil hwhole.ne_nil
    exact ⟨c, _, hwhole.eq, hwhole.isDigit c List.mem_cons_self⟩

theorem IsNumeral.exists_cons {t r : Text} {negative : Bool} {p : Parts}
    (h : IsNumeral t negative p r) : ∃ c u, t = c :: u ∧ (c = '-' ∨ c.isDigit = true) := by
  cases h with
  | positive h =>
    obtain ⟨c, u, rfl, hc⟩ := h.exists_cons
    exact ⟨c, u, rfl, Or.inr hc⟩
  | negative h => exact ⟨'-', _, rfl, Or.inl rfl⟩

theorem IsNumeral.exists_numeral_eq {t r : Text} {negative : Bool} {p : Parts}
    (h : IsNumeral t negative p r) (hr : IsNumeralEnd r) :
    ∃ n : Numeral, numeral t = .ok (n, r) ∧ n.negative = negative ∧ n.parts = p := by
  cases h with
  | positive h =>
    obtain ⟨n, hread, hn⟩ := h.exists_unsignedNumeral_eq hr false
    obtain ⟨c, u, rfl, hc⟩ := h.exists_cons
    have hminus : c ≠ '-' := fun heq => by rw [heq] at hc; cases hc
    exact ⟨n, by rw [numeral, if_neg hminus, hread], hn⟩
  | negative h =>
    obtain ⟨n, hread, hn⟩ := h.exists_unsignedNumeral_eq hr true
    exact ⟨n, by rw [numeral, if_pos rfl, hread], hn⟩

theorem IsUnsigned.shorter {t r : Text} {p : Parts} (h : IsUnsigned t p r) :
    r.length < t.length := by
  cases h with
  | parts hwhole _ hfraction hexponent =>
    exact Nat.lt_of_le_of_lt hexponent.length_le
      (Nat.lt_of_le_of_lt hfraction.length_le hwhole.shorter)

theorem IsNumeral.shorter {t r : Text} {negative : Bool} {p : Parts}
    (h : IsNumeral t negative p r) : r.length < t.length := by
  cases h with
  | positive h => exact h.shorter
  | negative h => exact Nat.lt_succ_of_lt h.shorter

theorem numberValue_sound {t r : Text} {x : Binary64} (h : numberValue t = .ok (x, r))
    (levels : Nat) : Language.number x levels t r := by
  rw [numberValue] at h
  split at h
  next => cases h
  next n r' hread =>
    split at h
    next y hvalue =>
      cases h
      obtain ⟨d, hkeeps, hscales⟩ := value?_eq_some_iff.mp hvalue
      exact ⟨n.negative, n.parts, d, numeral_sound hread, hkeeps, hscales⟩
    next => cases h

theorem Language.number.numberValue_eq {levels : Nat} {t r : Text} {x : Binary64}
    (h : Language.number x levels t r) (hr : IsNumeralEnd r) : numberValue t = .ok (x, r) := by
  obtain ⟨negative, p, d, hnumeral, hkeeps, hscales⟩ := h
  obtain ⟨n, hread, rfl, rfl⟩ := hnumeral.exists_numeral_eq hr
  rw [numberValue, hread]
  simp only [value?_eq_some_iff.mpr ⟨d, hkeeps, hscales⟩]

end SolidScript.Json
