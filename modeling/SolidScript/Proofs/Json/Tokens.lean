import SolidScript.Json.Shape
import SolidScript.Proofs.Json.Layout
import SolidScript.Proofs.Json.Numeral
import SolidScript.Proofs.Json.Strings

/-!
# What stands between brackets

Each step of the guided reader on a text that was written: blanks are skipped, the next item or key
is found behind the gap in front of it, and numbers, flags and strings are read up to their ends. A
number that is not finite is written as a word, and that is no number: `Yields` says of a reading
when it succeeds and what it yields, and that there is an error otherwise.
-/

namespace SolidScript.Json

/-! ## Outcomes -/

/-- The result is the value and the rest where `p` holds, and an error where it does not. -/
structure Yields {α : Type} (p : Prop) (a : α) (r : Text) (result : Except ReadError (α × Text)) :
    Prop where
  ok : p → result = .ok (a, r)
  error : ¬p → ∃ e, result = .error e

section Yields

variable {α β : Type} {p : Prop} {a : α} {r : Text} {result : Except ReadError (α × Text)}

theorem yields_of_ok (h : result = .ok (a, r)) (hp : p) : Yields p a r result :=
  ⟨fun _ => h, fun hnot => absurd hp hnot⟩

theorem yields_of_error {e : ReadError} (h : result = .error e) (hp : ¬p) : Yields p a r result :=
  ⟨fun hp' => absurd hp' hp, fun _ => ⟨e, h⟩⟩

theorem Yields.cases (h : Yields p a r result) :
    (p ∧ result = .ok (a, r)) ∨ (¬p ∧ ∃ e, result = .error e) := by
  by_cases hp : p
  · exact Or.inl ⟨hp, h.ok hp⟩
  · exact Or.inr ⟨hp, h.error hp⟩

theorem Yields.congr {q : Prop} (h : Yields p a r result) (hpq : p ↔ q) : Yields q a r result :=
  ⟨fun hq => h.ok (hpq.mpr hq), fun hq => h.error fun hp => hq (hpq.mp hp)⟩

theorem Yields.map (h : Yields p a r result) (f : α → β) :
    Yields p (f a) r (result.map fun (a, t) => (f a, t)) := by
  rcases h.cases with ⟨hp, hok⟩ | ⟨hp, e, herror⟩
  · rw [hok]
    exact yields_of_ok rfl hp
  · rw [herror]
    exact yields_of_error rfl hp

end Yields

/-- A reader that has more fuel than text is not out of fuel. -/
theorem exists_fuel_eq {t : Text} {fuel : Nat} (h : t.length < fuel) : ∃ rest, fuel = rest + 1 :=
  Nat.exists_eq_add_one_of_ne_zero (Nat.ne_zero_of_lt h)

/-! ## Blanks -/

section Blanks

variable {bs t : Text} (hbs : bs.all isBlank = true)

include hbs

theorem skipBlanks_append : skipBlanks (bs ++ t) = skipBlanks t :=
  List.dropWhile_append_of_pos fun c hc => List.all_eq_true.mp hbs c hc

theorem skipBlanks_append_cons {c : Char} (hc : isBlank c = false) :
    skipBlanks (bs ++ c :: t) = c :: t := by
  rw [skipBlanks_append hbs, skipBlanks, List.dropWhile_cons, hc, if_neg Bool.false_ne_true]

theorem closeArray_blanks : closeArray (bs ++ ']' :: t) = .ok t := by
  rw [closeArray, skipBlanks_append_cons hbs rfl]
  rfl

theorem closeObject_blanks : closeObject (bs ++ '\x7d' :: t) = .ok t := by
  rw [closeObject, skipBlanks_append_cons hbs rfl]
  rfl

theorem nextItem?_end (first : Bool) : nextItem? first (bs ++ ']' :: t) = .ok none := by
  rw [nextItem?, skipBlanks_append_cons hbs rfl]
  rfl

theorem nextKey?_end (fuel : Nat) (first : Bool) :
    nextKey? fuel first (bs ++ '\x7d' :: t) = .ok none := by
  rw [nextKey?, skipBlanks_append_cons hbs rfl]
  rfl

/-- The next item stands behind a gap, with a comma in front of it unless it is the first. -/
theorem nextItem?_gap (first : Bool) {c : Char} (hc : isBlank c = false) (hclose : c ≠ ']') :
    nextItem? first ((if first then [] else [',']) ++ bs ++ c :: t) = .ok (some (c :: t)) := by
  cases first with
  | true =>
    rw [if_pos rfl, List.nil_append, nextItem?, skipBlanks_append_cons hbs hc]
    simp [hclose]
  | false =>
    have hcomma : skipBlanks (',' :: (bs ++ c :: t)) = ',' :: (bs ++ c :: t) := rfl
    rw [if_neg Bool.false_ne_true, List.singleton_append, List.cons_append, nextItem?, hcomma]
    simp [skipBlanks_append_cons hbs hc, hclose]

/-- So does the next key. -/
theorem nextKey?_gap {fuel : Nat} (first : Bool) {key : Text}
    (hfuel : (quote key ++ t).length ≤ fuel) :
    nextKey? fuel first ((if first then [] else [',']) ++ bs ++ (quote key ++ t))
      = .ok (some (key, t)) := by
  rw [quote_append] at hfuel ⊢
  have hkey : stringBody fuel (key.flatMap escapeChar ++ '"' :: t) = .ok (key, t) :=
    stringBody_quote hfuel
  cases first with
  | true =>
    rw [if_pos rfl, List.nil_append, nextKey?, skipBlanks_append_cons hbs rfl]
    simp [hkey, Except.map]
  | false =>
    have hcomma (u : Text) : skipBlanks (',' :: u) = ',' :: u := rfl
    have hquote (u : Text) : skipBlanks (bs ++ '"' :: u) = '"' :: u :=
      skipBlanks_append_cons hbs rfl
    rw [if_neg Bool.false_ne_true, List.singleton_append, List.cons_append, nextKey?, hcomma]
    simp [hquote, hkey, Except.map]

theorem isNumeralEnd_blanks {c : Char} (hc : c = ',' ∨ c = ']' ∨ c = '\x7d') :
    IsNumeralEnd (bs ++ c :: t) := by
  cases bs with
  | nil =>
    rintro d ⟨⟩
    rcases hc with rfl | rfl | rfl <;> exact ⟨rfl, by decide, by decide, by decide⟩
  | cons b bs =>
    rw [List.all_cons, Bool.and_eq_true] at hbs
    have hb := hbs.1
    simp only [isBlank, Bool.or_eq_true, decide_eq_true_eq] at hb
    rintro d ⟨⟩
    rcases hb with ((rfl | rfl) | rfl) | rfl <;> exact ⟨rfl, by decide, by decide, by decide⟩

end Blanks

theorem expectColon_cons (t : Text) : expectColon (':' :: t) = .ok t := rfl

/-! ## Words, numbers and strings -/

theorem expectWord_append (w t : Text) : expectWord w (w ++ t) = .ok t := by
  induction w with
  | nil => rfl
  | cons c w ih => rw [List.cons_append, expectWord, if_pos rfl, ih]

theorem skipBlanks_cons {c : Char} (hc : isBlank c = false) (t : Text) :
    skipBlanks (c :: t) = c :: t := by
  rw [skipBlanks, List.dropWhile_cons, hc, if_neg Bool.false_ne_true]

/-- What is read as a number starts with a digit or with a minus sign. -/
theorem start_of_numberValue {c : Char} {t : Text} {x : Binary64 × Text}
    (h : numberValue (c :: t) = .ok x) : c = '-' ∨ c.isDigit = true := by
  by_cases hminus : c = '-'
  · exact Or.inl hminus
  by_cases hdigit : c.isDigit = true
  · exact Or.inr hdigit
  · exfalso
    have hdigits : takeDigits (c :: t) = [] := by
      rw [takeDigits, List.takeWhile_cons, if_neg hdigit]
    have hnumeral : numeral (c :: t) = .error .malformed := by
      rw [numeral, if_neg hminus, unsignedNumeral, wholeDigits]
      unfold someDigits
      rw [hdigits]
    rw [numberValue, hnumeral] at h
    cases h

theorem isBlank_of_start {c : Char} (h : c = '-' ∨ c.isDigit = true) : isBlank c = false := by
  rcases h with rfl | h
  · rfl
  · cases hblank : isBlank c with
    | false => rfl
    | true =>
      simp only [isBlank, Bool.or_eq_true, decide_eq_true_eq] at hblank
      rcases hblank with ((rfl | rfl) | rfl) | rfl <;> cases h

theorem readNumber_of_start (fuel : Nat) (expected : Text) {c : Char} {t : Text}
    (h : c = '-' ∨ c.isDigit = true) :
    readNumber fuel expected (c :: t) = numberValue (c :: t) := by
  rw [readNumber, skipBlanks_cons (isBlank_of_start h)]
  exact if_pos h

/-- A number is read if it is finite. Another one is written as a word, and refused. -/
theorem yields_readNumber (fuel : Nat) (expected : Text) (x : Binary64) {r : Text}
    (hr : IsNumeralEnd r) :
    Yields (x.isFinite = true) x.reread r (readNumber fuel expected (printNumber x ++ r)) := by
  rw [printNumber]
  split
  next h =>
    have hread := numberValue_write h hr
    cases htext : Style.document.write x ++ r with
    | nil =>
      rw [htext] at hread
      cases hread
    | cons c t =>
      rw [htext] at hread
      rw [readNumber_of_start fuel expected (start_of_numberValue hread)]
      exact yields_of_ok hread h
  next h =>
    have hnull : "null".toList ++ r = 'n' :: ("ull".toList ++ r) := rfl
    rw [hnull, readNumber, skipBlanks_cons rfl]
    exact yields_of_error rfl h

theorem readFlag_print (fuel : Nat) (expected : Text) (b : Bool) (r : Text) :
    readFlag fuel expected ((if b then "true".toList else "false".toList) ++ r) = .ok (b, r) := by
  cases b with
  | true =>
    have htrue : "true".toList ++ r = 't' :: ("rue".toList ++ r) := rfl
    rw [if_pos rfl, htrue, readFlag, skipBlanks_cons rfl]
    show (expectWord "rue".toList ("rue".toList ++ r)).map _ = _
    rw [expectWord_append]
    rfl
  | false =>
    have hfalse : "false".toList ++ r = 'f' :: ("alse".toList ++ r) := rfl
    rw [if_neg Bool.false_ne_true, hfalse, readFlag, skipBlanks_cons rfl]
    show (expectWord "alse".toList ("alse".toList ++ r)).map _ = _
    rw [expectWord_append]
    rfl

theorem readString_quote {fuel : Nat} (expected : Text) {t r : Text}
    (h : (quote t ++ r).length ≤ fuel) :
    readString fuel expected (quote t ++ r) = .ok (t, r) := by
  rw [quote_append] at h ⊢
  rw [readString, skipBlanks_cons rfl]
  simp only [if_pos]
  exact stringBody_quote h

end SolidScript.Json
