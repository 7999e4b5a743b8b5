import SolidScript.Proofs.Json.Lexemes

/-!
# Values that are skipped

What is skipped is any value, and any value is skipped (`skipValue_sound`, `IsValue.skipValue_eq`).
The reader keeps the brackets that are open on a stack. `Closes` is what has to follow a value
inside such brackets; every step of the reader takes one item or bracket off it.
-/

namespace SolidScript.Json

/-! ## Starts and ends -/

/-- The text starts as values do, and no more than the rest of it is left. -/
structure Starts (t r : Text) : Prop where
  exists_cons : ∃ c u, t = c :: u ∧ isBlank c = false ∧ c ≠ ']'
  shorter : r.length < t.length

theorem isNumeralEnd_of_blanks {t r : Text} {c : Char} (h : Blanks t (c :: r))
    (hc : c = ',' ∨ c = ']' ∨ c = '\x7d') : IsNumeralEnd t := by
  obtain ⟨bs, hbs, rfl⟩ := h
  exact isNumeralEnd_blanks hbs hc

theorem isNumeralEnd_of_blanks_nil {t : Text} (h : Blanks t []) : IsNumeralEnd t := by
  obtain ⟨bs, hbs, rfl⟩ := h
  rw [List.append_nil]
  cases bs with
  | nil => exact isNumeralEnd_nil
  | cons b bs =>
    -- only the first character counts, whatever stands behind the blanks
    have hcomma := @isNumeralEnd_blanks (b :: bs) [] hbs ',' (Or.inl rfl)
    exact fun c hc => hcomma c hc

/-- Whatever follows an item does not go on with a numeral. -/
theorem isNumeralEnd_of_gap {t r : Text} (h : Gap false t r) : IsNumeralEnd t := by
  obtain ⟨u, hcomma, -⟩ := h
  exact isNumeralEnd_of_blanks hcomma (Or.inl rfl)

theorem AreItems.isNumeralEnd {t r : Text} (h : AreItems false t r) : IsNumeralEnd t := by
  cases h with
  | close h => exact isNumeralEnd_of_blanks h (Or.inr (Or.inl rfl))
  | item hgap => exact isNumeralEnd_of_gap hgap

theorem AreEntries.isNumeralEnd {t r : Text} (h : AreEntries false t r) : IsNumeralEnd t := by
  cases h with
  | close h => exact isNumeralEnd_of_blanks h (Or.inr (Or.inr rfl))
  | entry hgap => exact isNumeralEnd_of_gap hgap

theorem IsNumeral.starts {t r : Text} {negative : Bool} {p : Parts}
    (h : IsNumeral t negative p r) : Starts t r := by
  refine ⟨?_, h.shorter⟩
  obtain ⟨c, u, rfl, hc⟩ := h.exists_cons
  refine ⟨c, u, rfl, isBlank_of_start hc, ?_⟩
  rintro rfl
  exact absurd hc (by decide)

mutual

theorem IsValue.shorter {t r : Text} : IsValue t r → r.length < t.length
  | .word h r => by
    have hpos : ∀ w ∈ words, 0 < w.length := by decide
    have hlength := hpos _ h
    rw [List.length_append]
    omega
  | .number h => h.shorter
  | .string h => Nat.lt_succ_of_lt h.shorter
  | .array h => Nat.lt_succ_of_lt h.shorter
  | .object h => Nat.lt_succ_of_lt h.shorter

theorem AreItems.shorter {first : Bool} {t r : Text} : AreItems first t r → r.length < t.length
  | .close h => h.length_le
  | .item hgap h hrest =>
    Nat.lt_of_lt_of_le (Nat.lt_trans hrest.shorter h.shorter) hgap.length_le

theorem AreEntries.shorter {first : Bool} {t r : Text} :
    AreEntries first t r → r.length < t.length
  | .close h => h.length_le
  | .entry hgap hkey hcolon hblank h hrest => by
    have hlength := Nat.lt_trans hrest.shorter h.shorter
    have hkeyLength := hkey.shorter
    have hgapLength := hgap.length_le
    have hcolonLength := hcolon.length_le
    have hblankLength := hblank.length_le
    simp only [List.length_cons] at hgapLength hcolonLength
    omega

end

theorem IsValue.starts {t r : Text} (h : IsValue t r) : Starts t r := by
  refine ⟨?_, h.shorter⟩
  cases h with
  | @word w h =>
    have hwords : ∀ w ∈ words, ∃ c u, w = c :: u ∧ isBlank c = false ∧ c ≠ ']' := by
      simp [words, isBlank]
    obtain ⟨c, u, rfl, hc⟩ := hwords w h
    exact ⟨c, u ++ r, rfl, hc⟩
  | number h => exact h.starts.exists_cons
  | string => exact ⟨'"', _, rfl, rfl, by decide⟩
  | array => exact ⟨'[', _, rfl, rfl, by decide⟩
  | object => exact ⟨'\x7b', _, rfl, rfl, by decide⟩

/-! ## What is skipped is a value -/

/-- Behind a value, the brackets that are open around it are closed, the innermost first. -/
def Closes : List Bracket → Text → Text → Prop
  | [], t, r => t = r
  | .array :: outer, t, r => ∃ u, AreItems false t u ∧ Closes outer u r
  | .object :: outer, t, r => ∃ u, AreEntries false t u ∧ Closes outer u r

theorem skipKey_sound {fuel : Nat} {t r : Text} (h : skipKey fuel t = .ok r) :
    ∃ u v, Blanks t ('"' :: u) ∧ RawTail u v ∧ Blanks v (':' :: r) := by
  rw [skipKey] at h
  split at h
  next => cases h
  next c u hstart =>
    split at h
    next => cases h
    next hquote =>
      split at h
      next => cases h
      next v hstring =>
        obtain rfl := Decidable.not_not.mp hquote
        exact ⟨u, v, blanks_of_skipBlanks_eq hstart, skipString_sound hstring,
          expectColon_eq_ok_iff.mp h⟩

theorem skipScalar_sound {fuel : Nat} {c : Char} {t r : Text} (h : skipScalar fuel c t = .ok r) :
    IsValue (c :: t) r := by
  rw [skipScalar] at h
  have hword {d : Char} {w : Text} (hw : d :: w ∈ words) (h : expectWord w t = .ok r) :
      IsValue (d :: t) r := by
    rw [expectWord_eq_ok_iff.mp h]
    exact .word hw r
  split at h
  next hc =>
    subst hc
    exact .string (skipString_sound h)
  split at h
  next hc =>
    subst hc
    exact hword (by decide) h
  split at h
  next hc =>
    subst hc
    exact hword (by decide) h
  split at h
  next hc =>
    subst hc
    exact hword (by decide) h
  split at h
  next =>
    rw [skipNumeral] at h
    split at h
    next => cases h
    next n r' hnumeral =>
      cases h
      exact .number (numeral_sound hnumeral)
  next => cases h

/-- What the reader has found as soon as it succeeds. -/
def Skipped (behind : Bool) (around : List Bracket) (t r : Text) : Prop :=
  if behind then Closes around t r else ∃ u v, Blanks t u ∧ IsValue u v ∧ Closes around v r

section Step

variable {fuel : Nat} {r : Text} (ih : ∀ {behind : Bool} {around : List Bracket} {t : Text},
  skipFrom fuel behind around t = .ok r → Skipped behind around t r)

include ih

/-- Behind a value there is a bracket, or a comma and one more item or entry. -/
theorem closes_of_skipFrom {around : List Bracket} {t : Text}
    (h : skipFrom (fuel + 1) true around t = .ok r) : Closes around t r := by
  unfold skipFrom at h
  rw [if_pos rfl] at h
  cases around with
  | nil =>
    cases h
    rfl
  | cons b outer =>
    simp only at h
    split at h
    next => cases h
    next c u hstart =>
      have hblank := blanks_of_skipBlanks_eq hstart
      split at h
      next hclose =>
        subst hclose
        have hrest : Closes outer u r := ih h
        cases b with
        | array => exact ⟨u, .close hblank, hrest⟩
        | object => exact ⟨u, .close hblank, hrest⟩
      next =>
        split at h
        next => cases h
        next hcomma =>
          obtain rfl := Decidable.not_not.mp hcomma
          cases b with
          | array =>
            obtain ⟨v, w, hvalue, hv, x, hitems, hrest⟩ := ih h
            exact ⟨x, .item ⟨u, hblank, hvalue⟩ hv hitems, hrest⟩
          | object =>
            simp only at h
            split at h
            next => cases h
            next v hkey =>
              obtain ⟨k, l, hquote, hraw, hcolon⟩ := skipKey_sound hkey
              obtain ⟨w, x, hvalue, hw, y, hentries, hrest⟩ := ih h
              exact ⟨y, .entry ⟨u, hblank, hquote⟩ hraw hcolon hvalue hw hentries, hrest⟩

/-- In front of a value there are blanks, and the brackets that it opens are the first to close. -/
theorem isValue_of_skipFrom {around : List Bracket} {t : Text}
    (h : skipFrom (fuel + 1) false around t = .ok r) :
    ∃ u v, Blanks t u ∧ IsValue u v ∧ Closes around v r := by
  unfold skipFrom at h
  rw [if_neg Bool.false_ne_true] at h
  split at h
  next => cases h
  next c u hstart =>
    have hblank := blanks_of_skipBlanks_eq hstart
    split at h
    next harray =>
      subst harray
      split at h
      next => cases h
      next d v hnext =>
        split at h
        next hclose =>
          subst hclose
          exact ⟨_, v, hblank, .array (.close (blanks_of_skipBlanks_eq hnext)), ih h⟩
        next =>
          obtain ⟨w, x, hvalue, hw, y, hitems, hrest⟩ := ih h
          exact ⟨_, y, hblank, .array (.item hvalue hw hitems), hrest⟩
    next =>
      split at h
      next hobject =>
        subst hobject
        split at h
        next => cases h
        next d v hnext =>
          split at h
          next hclose =>
            subst hclose
            exact ⟨_, v, hblank, .object (.close (blanks_of_skipBlanks_eq hnext)), ih h⟩
          next =>
            split at h
            next => cases h
            next w hkey =>
              obtain ⟨k, l, hquote, hraw, hcolon⟩ := skipKey_sound hkey
              obtain ⟨x, y, hvalue, hx, z, hentries, hrest⟩ := ih h
              exact ⟨_, z, hblank, .object (.entry hquote hraw hcolon hvalue hx hentries), hrest⟩
      next =>
        split at h
        next => cases h
        next v hscalar => exact ⟨_, v, hblank, skipScalar_sound hscalar, ih h⟩

end Step

theorem skipFrom_sound {fuel : Nat} {behind : Bool} {around : List Bracket} {t r : Text}
    (h : skipFrom fuel behind around t = .ok r) : Skipped behind around t r := by
  induction fuel generalizing behind around t with
  | zero => cases h
  | succ fuel ih =>
    cases behind with
    | true => exact closes_of_skipFrom ih h
    | false => exact isValue_of_skipFrom ih h

theorem skipValue_sound {fuel : Nat} {t r : Text} (h : skipValue fuel t = .ok r) :
    ∃ u, Blanks t u ∧ IsValue u r := by
  obtain ⟨u, v, hblank, hvalue, rfl⟩ := skipFrom_sound h
  exact ⟨u, hblank, hvalue⟩

/-! ## Every value is skipped -/

section Steps

variable {fuel : Nat} {around : List Bracket} {s t u r : Text}

theorem skipKey_eq {v : Text} (fuel : Nat) (hquote : Blanks t ('"' :: u)) (hraw : RawTail u v)
    (hcolon : Blanks v (':' :: r)) (hfuel : t.length < fuel + 1) : skipKey fuel t = .ok r := by
  have hlength := hquote.length_le
  rw [List.length_cons] at hlength
  rw [skipKey, hquote.skipBlanks_cons rfl]
  simp [hraw.skipString_eq (show u.length < fuel by omega), expectColon_eq_ok_iff.mpr hcolon]

theorem skipFrom_close {b : Bracket} (h : Blanks t (b.closing :: r)) :
    skipFrom (fuel + 1) true (b :: around) t = skipFrom fuel true around r := by
  have hstart := h.skipBlanks_cons (by cases b <;> rfl)
  conv => lhs; unfold skipFrom
  simp [hstart]

theorem skipFrom_comma (h : Blanks t (',' :: r)) :
    skipFrom (fuel + 1) true (.array :: around) t = skipFrom fuel false (.array :: around) r := by
  conv => lhs; unfold skipFrom
  simp [h.skipBlanks_cons rfl, Bracket.closing]

theorem skipFrom_comma_key (h : Blanks t (',' :: r)) (hkey : skipKey fuel r = .ok u) :
    skipFrom (fuel + 1) true (.object :: around) t = skipFrom fuel false (.object :: around) u := by
  conv => lhs; unfold skipFrom
  simp [h.skipBlanks_cons rfl, Bracket.closing, hkey]

theorem skipFrom_array_close (h : Blanks s ('[' :: t)) (hclose : Blanks t (']' :: r)) :
    skipFrom (fuel + 1) false around s = skipFrom fuel true around r := by
  conv => lhs; unfold skipFrom
  simp [h.skipBlanks_cons rfl, hclose.skipBlanks_cons rfl]

theorem skipFrom_array (h : Blanks s ('[' :: t)) (hblank : Blanks t u) (hu : Starts u r) :
    skipFrom (fuel + 1) false around s = skipFrom fuel false (.array :: around) t := by
  obtain ⟨c, v, rfl, hc, hclose⟩ := hu.exists_cons
  conv => lhs; unfold skipFrom
  simp [h.skipBlanks_cons rfl, hblank.skipBlanks_cons hc, hclose]

theorem skipFrom_object_close (h : Blanks s ('\x7b' :: t)) (hclose : Blanks t ('\x7d' :: r)) :
    skipFrom (fuel + 1) false around s = skipFrom fuel true around r := by
  conv => lhs; unfold skipFrom
  simp [h.skipBlanks_cons rfl, hclose.skipBlanks_cons rfl]

theorem skipFrom_object (h : Blanks s ('\x7b' :: t)) (hquote : Blanks t ('"' :: r))
    (hkey : skipKey fuel t = .ok u) :
    skipFrom (fuel + 1) false around s = skipFrom fuel false (.object :: around) u := by
  conv => lhs; unfold skipFrom
  simp [h.skipBlanks_cons rfl, hquote.skipBlanks_cons rfl, hkey]

theorem skipFrom_scalar {c : Char} (h : Blanks s (c :: t)) (hblank : isBlank c = false)
    (harray : c ≠ '[') (hobject : c ≠ '\x7b') (hscalar : skipScalar fuel c t = .ok r) :
    skipFrom (fuel + 1) false around s = skipFrom fuel true around r := by
  conv => lhs; unfold skipFrom
  simp [h.skipBlanks_cons hblank, harray, hobject, hscalar]

end Steps

theorem skipScalar_word (fuel : Nat) {w : Text} (h : w ∈ words) (r : Text) :
    ∃ c u, w = c :: u ∧ isBlank c = false ∧ c ≠ '[' ∧ c ≠ '\x7b'
      ∧ skipScalar fuel c (u ++ r) = .ok r := by
  have hword (u : Text) : expectWord u (u ++ r) = .ok r := expectWord_append u r
  simp only [words, List.mem_cons, List.not_mem_nil, or_false] at h
  rcases h with rfl | rfl | rfl
  · exact ⟨'n', "ull".toList, rfl, rfl, by decide, by decide, hword _⟩
  · exact ⟨'t', "rue".toList, rfl, rfl, by decide, by decide, hword _⟩
  · exact ⟨'f', "alse".toList, rfl, rfl, by decide, by decide, hword _⟩

theorem ne_of_start {c d : Char} (hc : c = '-' ∨ c.isDigit = true)
    (hd : ¬(d = '-' ∨ d.isDigit = true)) : c ≠ d := by
  rintro rfl
  exact hd hc

theorem skipScalar_numeral {fuel : Nat} {c : Char} {t r : Text} {negative : Bool} {p : Parts}
    (h : IsNumeral (c :: t) negative p r) (hc : c = '-' ∨ c.isDigit = true)
    (hr : IsNumeralEnd r) : skipScalar fuel c t = .ok r := by
  obtain ⟨n, hread, -⟩ := h.exists_numeral_eq hr
  rw [skipScalar, if_neg (ne_of_start hc (by decide)), if_neg (ne_of_start hc (by decide)),
    if_neg (ne_of_start hc (by decide)), if_neg (ne_of_start hc (by decide)), if_pos hc,
    skipNumeral, hread]

mutual

/-- The reader comes to the end of a value with fuel enough for what is left. -/
theorem IsValue.skipFrom_eq {t r : Text} : IsValue t r → IsNumeralEnd r →
    ∀ (fuel : Nat) (around : List Bracket) {s : Text}, Blanks s t → s.length < fuel →
      ∃ fuel', r.length < fuel' ∧ skipFrom fuel false around s = skipFrom fuel' true around r
  | _, _, 0, _, _, _, hfuel => absurd hfuel (Nat.not_lt_zero _)
  | .word h r, _, fuel + 1, _, s, hs, hfuel => by
    have hlength := Nat.lt_of_lt_of_le (IsValue.word h r).shorter hs.length_le
    obtain ⟨c, u, rfl, hc, harray, hobject, hread⟩ := skipScalar_word fuel h r
    exact ⟨fuel, by omega, skipFrom_scalar hs hc harray hobject hread⟩
  | .number h, hr, fuel + 1, _, s, hs, hfuel => by
    have hlength := Nat.lt_of_lt_of_le h.shorter hs.length_le
    obtain ⟨c, u, rfl, hc⟩ := h.exists_cons
    exact ⟨fuel, by omega, skipFrom_scalar hs (isBlank_of_start hc) (ne_of_start hc (by decide))
      (ne_of_start hc (by decide)) (skipScalar_numeral h hc hr)⟩
  | .string h, _, fuel + 1, _, s, hs, hfuel => by
    have hlength := hs.length_le
    have hrest := h.shorter
    rw [List.length_cons] at hlength
    refine ⟨fuel, by omega, skipFrom_scalar hs rfl (by decide) (by decide) ?_⟩
    rw [skipScalar, if_pos rfl]
    exact h.skipString_eq (by omega)
  | .array (.close h), _, fuel + 1, _, s, hs, hfuel => by
    have hlength := hs.length_le
    have hrest := h.length_le
    simp only [List.length_cons] at hlength hrest
    exact ⟨fuel, by omega, skipFrom_array_close hs h⟩
  | .array (.item hgap h hitems), _, fuel + 1, around, s, hs, hfuel => by
    have hlength := hs.length_le
    rw [List.length_cons] at hlength
    obtain ⟨fuel₁, hfuel₁, hvalue⟩ := IsValue.skipFrom_eq h hitems.isNumeralEnd fuel
      (.array :: around) hgap (by omega)
    obtain ⟨fuel₂, hfuel₂, hrest⟩ := AreItems.skipFrom_eq hitems rfl fuel₁ around hfuel₁
    exact ⟨fuel₂, hfuel₂, by rw [skipFrom_array hs hgap h.starts, hvalue, hrest]⟩
  | .object (.close h), _, fuel + 1, _, s, hs, hfuel => by
    have hlength := hs.length_le
    have hrest := h.length_le
    simp only [List.length_cons] at hlength hrest
    exact ⟨fuel, by omega, skipFrom_object_close hs h⟩
  | .object (.entry hgap hkey hcolon hblank h hentries), _, fuel + 1, around, s, hs, hfuel => by
    have hlength := hs.length_le
    have hlength' := hcolon.length_le
    have hquote := hgap.length_le
    have hraw := hkey.shorter
    simp only [List.length_cons] at hlength hlength' hquote
    obtain ⟨fuel₁, hfuel₁, hvalue⟩ := IsValue.skipFrom_eq h hentries.isNumeralEnd fuel
      (.object :: around) hblank (by omega)
    obtain ⟨fuel₂, hfuel₂, hrest⟩ := AreEntries.skipFrom_eq hentries rfl fuel₁ around hfuel₁
    have hread := skipKey_eq fuel hgap hkey hcolon (by omega)
    exact ⟨fuel₂, hfuel₂, by rw [skipFrom_object hs hgap hread, hvalue, hrest]⟩

theorem AreItems.skipFrom_eq {first : Bool} {t r : Text} : AreItems first t r → first = false →
    ∀ (fuel : Nat) (around : List Bracket), t.length < fuel →
      ∃ fuel', r.length < fuel' ∧
        skipFrom fuel true (.array :: around) t = skipFrom fuel' true around r
  | _, _, 0, _, hfuel => absurd hfuel (Nat.not_lt_zero _)
  | .close h, _, fuel + 1, _, hfuel => by
    have hlength := h.length_le
    rw [List.length_cons] at hlength
    exact ⟨fuel, by omega, skipFrom_close h⟩
  | .item hgap h hitems, hfirst, fuel + 1, around, hfuel => by
    subst hfirst
    obtain ⟨w, hcomma, hblank⟩ := hgap
    have hlength := hcomma.length_le
    rw [List.length_cons] at hlength
    obtain ⟨fuel₁, hfuel₁, hvalue⟩ := IsValue.skipFrom_eq h hitems.isNumeralEnd fuel
      (.array :: around) hblank (by omega)
    obtain ⟨fuel₂, hfuel₂, hrest⟩ := AreItems.skipFrom_eq hitems rfl fuel₁ around hfuel₁
    exact ⟨fuel₂, hfuel₂, by rw [skipFrom_comma hcomma, hvalue, hrest]⟩

theorem AreEntries.skipFrom_eq {first : Bool} {t r : Text} : AreEntries first t r → first = false →
    ∀ (fuel : Nat) (around : List Bracket), t.length < fuel →
      ∃ fuel', r.length < fuel' ∧
        skipFrom fuel true (.object :: around) t = skipFrom fuel' true around r
  | _, _, 0, _, hfuel => absurd hfuel (Nat.not_lt_zero _)
  | .close h, _, fuel + 1, _, hfuel => by
    have hlength := h.length_le
    rw [List.length_cons] at hlength
    exact ⟨fuel, by omega, skipFrom_close h⟩
  | .entry hgap hkey hcolon hblank h hentries, hfirst, fuel + 1, around, hfuel => by
    subst hfirst
    obtain ⟨w, hcomma, hquote⟩ := hgap
    have hlength := hcomma.length_le
    have hlength' := hcolon.length_le
    have hlength'' := hquote.length_le
    have hraw := hkey.shorter
    simp only [List.length_cons] at hlength hlength' hlength''
    obtain ⟨fuel₁, hfuel₁, hvalue⟩ := IsValue.skipFrom_eq h hentries.isNumeralEnd fuel
      (.object :: around) hblank (by omega)
    obtain ⟨fuel₂, hfuel₂, hrest⟩ := AreEntries.skipFrom_eq hentries rfl fuel₁ around hfuel₁
    have hread := skipKey_eq fuel hquote hkey hcolon (by omega)
    exact ⟨fuel₂, hfuel₂, by rw [skipFrom_comma_key hcomma hread, hvalue, hrest]⟩

end

theorem IsValue.skipValue_eq {s t r : Text} (h : IsValue t r) (hr : IsNumeralEnd r)
    (hs : Blanks s t) {fuel : Nat} (hfuel : s.length < fuel) : skipValue fuel s = .ok r := by
  obtain ⟨fuel', hfuel', hread⟩ := h.skipFrom_eq hr (fuel + 1) [] hs (Nat.lt_succ_of_lt hfuel)
  obtain ⟨fuel', rfl⟩ := exists_fuel_eq hfuel'
  rw [skipValue, hread]
  unfold skipFrom
  rfl

end SolidScript.Json
