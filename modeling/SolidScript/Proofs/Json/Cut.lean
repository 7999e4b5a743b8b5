import SolidScript.Proofs.Json.Tokens

/-!
# Texts cut short

What the readers of lexemes do where a text ends inside of one. A word or a string that is cut short
is found to be so (`expectWord_cut`, `stringFrom_cut`). Of other values nobody can tell, since what
is there of them may be a value itself. All that is known is that the text is at its end after it
has been read: it `RunsOut`.
-/

namespace SolidScript.Json

/-! ## Texts cut short -/

/-- The text is another one without some of its end. -/
def IsCut (p t : Text) : Prop := ∃ c r, p ++ c :: r = t

theorem isCut_iff {p t : Text} : IsCut p t ↔ p <+: t ∧ p ≠ t := by
  constructor
  · rintro ⟨c, r, rfl⟩
    exact ⟨List.prefix_append p (c :: r), by simp⟩
  · rintro ⟨⟨r, rfl⟩, hne⟩
    cases r with
    | nil => exact absurd (List.append_nil p).symm hne
    | cons c r => exact ⟨c, r, rfl⟩

namespace IsCut

variable {p t u : Text} {c : Char}

theorem isPrefix (h : IsCut p t) : p <+: t := (isCut_iff.mp h).1

theorem length_lt (h : IsCut p t) : p.length < t.length := by
  obtain ⟨c, r, rfl⟩ := h
  simp

theorem nil (h : t ≠ []) : IsCut [] t := isCut_iff.mpr ⟨List.nil_prefix, Ne.symm h⟩

theorem not_nil : ¬IsCut p [] := by
  rintro ⟨c, r, h⟩
  cases List.append_eq_nil_iff.mp h |>.2

/-- What is cut off a text that starts with `c` starts with `c`, if it has a start at all. -/
theorem cons_cases (h : IsCut p (c :: t)) : p = [] ∨ ∃ q, p = c :: q ∧ IsCut q t := by
  obtain ⟨d, r, h⟩ := h
  cases p with
  | nil => exact Or.inl rfl
  | cons b q =>
    obtain ⟨rfl, rfl⟩ := List.cons.inj h
    exact Or.inr ⟨q, rfl, d, r, rfl⟩

/-- The cut is in the first part, or else behind it. -/
theorem append_cases (h : IsCut p (t ++ u)) : IsCut p t ∨ ∃ q, p = t ++ q ∧ IsCut q u := by
  induction t generalizing p with
  | nil => exact Or.inr ⟨p, rfl, h⟩
  | cons c t ih =>
    rcases h.cons_cases with rfl | ⟨q, rfl, hq⟩
    · exact Or.inl (nil (List.cons_ne_nil c t))
    · rcases ih hq with ⟨d, r, rfl⟩ | ⟨q', rfl, hq'⟩
      · exact Or.inl ⟨d, r, rfl⟩
      · exact Or.inr ⟨q', rfl, hq'⟩

/-- What is cut off at the end starts as the whole does. -/
theorem mem_head? (h : IsCut p t) {d : Char} (hd : d ∈ p.head?) : d ∈ t.head? := by
  obtain ⟨r, rfl⟩ := h.isPrefix
  rw [List.head?_append, Option.mem_def.mp hd]
  rfl

theorem eq_nil_of_singleton (h : IsCut p [c]) : p = [] := by
  rcases h.cons_cases with rfl | ⟨q, -, hq⟩
  · rfl
  · exact absurd hq not_nil

end IsCut

/-- The text ends inside the value, or right behind something that has the property. -/
def RunsOut {α : Type} (P : α → Prop) (result : Except ReadError (α × Text)) : Prop :=
  result = .error .truncated ∨ ∃ a, result = .ok (a, []) ∧ P a

theorem RunsOut.map {α β : Type} {P : α → Prop} {Q : β → Prop}
    {result : Except ReadError (α × Text)} (h : RunsOut P result) (f : α → β)
    (hf : ∀ a, P a → Q (f a)) : RunsOut Q (result.map fun (a, t) => (f a, t)) := by
  rcases h with h | ⟨a, h, ha⟩
  · rw [h]
    exact Or.inl rfl
  · rw [h]
    exact Or.inr ⟨f a, rfl, hf a ha⟩

/-- The text `p` ends before `t` is reached, or else a rest of it is left that is `t` cut short. -/
def Reaches {α : Type} (p t : Text) (a : Text → α) (result : Except ReadError α) : Prop :=
  result = .error .truncated ∨ ∃ q, IsCut q t ∧ q.length ≤ p.length ∧ result = .ok (a q)

/-! ## Words -/

theorem expectWord_cut {w p : Text} (h : IsCut p w) : expectWord w p = .error .truncated := by
  induction w generalizing p with
  | nil => exact absurd h IsCut.not_nil
  | cons c w ih =>
    rcases h.cons_cases with rfl | ⟨q, rfl, hq⟩
    · rfl
    · rw [expectWord, if_pos rfl, ih hq]

theorem readFlag_cut (fuel : Nat) (expected : Text) {b : Bool} {p : Text}
    (h : IsCut p (if b then "true".toList else "false".toList)) :
    readFlag fuel expected p = .error .truncated := by
  cases b with
  | true =>
    have htrue : IsCut p ('t' :: "rue".toList) := h
    rcases htrue.cons_cases with rfl | ⟨q, rfl, hq⟩
    · rfl
    · show (expectWord "rue".toList q).map _ = _
      rw [expectWord_cut hq]
      rfl
  | false =>
    have hfalse : IsCut p ('f' :: "alse".toList) := h
    rcases hfalse.cons_cases with rfl | ⟨q, rfl, hq⟩
    · rfl
    · show (expectWord "alse".toList q).map _ = _
      rw [expectWord_cut hq]
      rfl

/-! ## Strings -/

/-- The code of a character has four digits, each of one byte. -/
theorem unicodeEscape_cut {n : Nat} (h : n < 0x100) {p : Text}
    (hp : IsCut p ['0', '0', Hex.digit (n / 16), Hex.digit (n % 16)]) :
    unicodeEscape p = .error .truncated := by
  have hdigit : ∀ m < 16, Utf8.size [Hex.digit m] = 1 := by decide
  have hsize : Utf8.size ['0', '0', Hex.digit (n / 16)] = 3 := by
    have hhigh := hdigit (n / 16) (by omega)
    rw [Utf8.size, List.foldr_cons, List.foldr_cons, ← Utf8.size, hhigh]
    rfl
  rcases hp.cons_cases with rfl | ⟨q, rfl, hq⟩
  · rfl
  rcases hq.cons_cases with rfl | ⟨r, rfl, hr⟩
  · rfl
  rcases hr.cons_cases with rfl | ⟨s, rfl, hs⟩
  · rfl
  rw [hs.eq_nil_of_singleton]
  have hunit : hexUnit ['0', '0', Hex.digit (n / 16)] = .error .truncated := by
    show (if Utf8.size ['0', '0', Hex.digit (n / 16)] < 4 then _ else _) = _
    rw [hsize]
    rfl
  rw [unicodeEscape, hunit]

theorem stringFrom_escapeChar_cut {c : Char} {p : Text} (h : IsCut p (escapeChar c)) (fuel : Nat)
    (done : Text) : stringFrom fuel done p = .error .truncated := by
  cases fuel with
  | zero => rfl
  | succ fuel =>
    rcases escapeChar_cases c with ⟨e, henc, -⟩ | ⟨hc, henc⟩ | ⟨-, -, -, henc⟩
    · rw [henc] at h
      rcases h.cons_cases with rfl | ⟨q, rfl, hq⟩
      · rfl
      · rw [hq.eq_nil_of_singleton]
        rfl
    · rw [henc] at h
      rcases h.cons_cases with rfl | ⟨q, rfl, hq⟩
      · rfl
      rcases hq.cons_cases with rfl | ⟨r, rfl, hr⟩
      · rfl
      have hescape : escape ('u' :: r) = .error .truncated := by
        have hcode : c.toNat < 0x100 := by omega
        rw [escape, if_pos rfl, unicodeEscape_cut hcode hr]
      rw [stringFrom, if_neg (by decide), if_pos rfl, hescape]
    · rw [henc] at h
      rw [h.eq_nil_of_singleton]
      rfl

theorem stringFrom_cut {t p : Text} (h : IsCut p (t.flatMap escapeChar ++ ['"'])) (fuel : Nat)
    (done : Text) : stringFrom fuel done p = .error .truncated := by
  induction t generalizing fuel done p with
  | nil =>
    rw [h.eq_nil_of_singleton]
    cases fuel <;> rfl
  | cons c t ih =>
    rw [List.flatMap_cons, List.append_assoc] at h
    rcases h.append_cases with hc | ⟨q, rfl, hq⟩
    · exact stringFrom_escapeChar_cut hc fuel done
    · cases fuel with
      | zero => rfl
      | succ fuel => rw [stringFrom_escapeChar, ih hq]

/-- A string is read to its end, or runs out of fuel before. -/
theorem stringFrom_quoted_or (fuel : Nat) (done t r : Text) :
    stringFrom fuel done (t.flatMap escapeChar ++ '"' :: r) = .error .truncated
      ∨ stringFrom fuel done (t.flatMap escapeChar ++ '"' :: r) = .ok (done.reverse ++ t, r) := by
  induction t generalizing fuel done with
  | nil =>
    cases fuel with
    | zero => exact Or.inl rfl
    | succ fuel =>
      refine Or.inr ?_
      rw [List.flatMap_nil, List.nil_append, stringFrom, if_pos rfl, List.append_nil]
  | cons c t ih =>
    cases fuel with
    | zero => exact Or.inl rfl
    | succ fuel =>
      have hrest := ih fuel (c :: done)
      rw [List.reverse_cons, List.append_assoc, List.singleton_append] at hrest
      rwa [List.flatMap_cons, List.append_assoc, stringFrom_escapeChar]

/-- Either the string itself is cut short, or what follows it. -/
theorem stringBody_cut {key t p : Text} (h : IsCut p (key.flatMap escapeChar ++ '"' :: t))
    (fuel : Nat) : Reaches p t (fun q => (key, q)) (stringBody fuel p) := by
  have hsplit : key.flatMap escapeChar ++ '"' :: t
      = (key.flatMap escapeChar ++ ['"']) ++ t := by simp
  rw [hsplit] at h
  rcases h.append_cases with hkey | ⟨q, rfl, hq⟩
  · exact Or.inl (stringFrom_cut hkey fuel [])
  · rw [List.append_assoc, List.singleton_append]
    refine (stringFrom_quoted_or fuel [] key q).imp_right fun hread => ⟨q, hq, ?_, hread⟩
    simp only [List.length_append, List.length_cons]
    omega

/-- So it is with the opening quote in front, if that is there. -/
theorem quote_cut {key t p : Text} (h : IsCut p (quote key ++ t)) (fuel : Nat) :
    p = [] ∨ ∃ q, p = '"' :: q ∧ Reaches p t (fun r => (key, r)) (stringBody fuel q) := by
  rw [quote_append] at h
  rcases h.cons_cases with rfl | ⟨q, rfl, hq⟩
  · exact Or.inl rfl
  · refine Or.inr ⟨q, rfl, (stringBody_cut hq fuel).imp_right ?_⟩
    rintro ⟨r, hr, hlength, hread⟩
    exact ⟨r, hr, Nat.le_succ_of_le hlength, hread⟩

theorem readString_cut (fuel : Nat) (expected : Text) {t p : Text} (h : IsCut p (quote t)) :
    readString fuel expected p = .error .truncated := by
  rcases h.cons_cases with rfl | ⟨q, rfl, hq⟩
  · rfl
  · rw [readString, skipBlanks_cons rfl]
    simp only [if_pos, stringBody, stringFrom_cut hq]

end SolidScript.Json
