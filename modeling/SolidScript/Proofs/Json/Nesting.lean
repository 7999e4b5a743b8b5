import SolidScript.Proofs.Json.Layout
import SolidScript.Proofs.Json.Strings
import SolidScript.Proofs.Number.Digits

/-!
# The nesting of a text

`Json.nesting` goes through a text and counts the brackets that are open at once; brackets in
strings do not count. In the text of a value it is the nesting of the value itself, whatever the
layout (`nesting_print`): what is written for strings, numbers and blanks opens no bracket, and each
array and each object opens one around what is nested in its parts.
-/

namespace SolidScript.Json

/-! ## The nesting of a value -/

mutual

/-- The number of arrays and objects that stand inside each other at most. -/
def depth : Json → Nat
  | .array items => 1 + depthAll items
  | .object fields => 1 + depthFields fields
  | _ => 0

def depthAll : List Json → Nat
  | [] => 0
  | j :: js => max j.depth (depthAll js)

def depthFields : List (Text × Json) → Nat
  | [] => 0
  | (_, j) :: fs => max j.depth (depthFields fs)

end

theorem depth_array (js : List Json) : (array js).depth = 1 + depthAll js := rfl

theorem depth_object (fs : List (Text × Json)) : (object fs).depth = 1 + depthFields fs := rfl

theorem depthAll_cons (j : Json) (js : List Json) :
    depthAll (j :: js) = max j.depth (depthAll js) := rfl

theorem depthFields_cons (f : Text × Json) (fs : List (Text × Json)) :
    depthFields (f :: fs) = max f.2.depth (depthFields fs) := rfl

/-! ## The nesting of a text -/

/-- What has been seen of a text. -/
structure Brackets where
  /-- Between quotes. -/
  quoted : Bool
  /-- Between quotes, behind a backslash. -/
  escaped : Bool
  /-- The number of brackets that are open. -/
  now : Nat
  /-- The greatest number of brackets that have been open. -/
  most : Nat

/-- One more character. -/
def Brackets.step (s : Brackets) (c : Char) : Brackets :=
  if s.escaped then { s with escaped := false }
  else if s.quoted then
    if c = '"' then { s with quoted := false }
    else if c = '\\' then { s with escaped := true }
    else s
  else if c = '"' then { s with quoted := true }
  else if c = '[' ∨ c = '\x7b' then { s with now := s.now + 1, most := max s.most (s.now + 1) }
  else if c = ']' ∨ c = '\x7d' then { s with now := s.now - 1 }
  else s

/-- The greatest number of brackets that are open at once in a text, brackets in strings not
counted. -/
def nesting (t : Text) : Nat := (t.foldl Brackets.step ⟨false, false, 0, 0⟩).most

/-- Outside quotes, the text opens `k` brackets at most and closes all of them. -/
def Nests (t : Text) (k : Nat) : Prop :=
  ∀ now most, now ≤ most →
    t.foldl Brackets.step ⟨false, false, now, most⟩ = ⟨false, false, now, max most (now + k)⟩

theorem Nests.nesting {t : Text} {k : Nat} (h : Nests t k) : nesting t = k := by
  rw [Json.nesting, h 0 0 (Nat.le_refl 0)]
  simp

theorem Nests.append {t u : Text} {k l : Nat} (ht : Nests t k) (hu : Nests u l) :
    Nests (t ++ u) (max k l) := by
  intro now most h
  rw [List.foldl_append, ht now most h, hu now _ (by omega)]
  congr 1
  omega

/-- Characters that neither open nor close anything. -/
def isPlain (c : Char) : Bool :=
  c ≠ '"' && c ≠ '[' && c ≠ '\x7b' && c ≠ ']' && c ≠ '\x7d'

theorem nests_plain {t : Text} (h : t.all isPlain = true) : Nests t 0 := by
  intro now most hle
  rw [Nat.add_zero, Nat.max_eq_left hle]
  induction t with
  | nil => rfl
  | cons c t ih =>
    rw [List.all_cons, Bool.and_eq_true] at h
    have hc := h.1
    simp only [isPlain, Bool.and_eq_true, decide_eq_true_eq] at hc
    have hstep : Brackets.step ⟨false, false, now, most⟩ c = ⟨false, false, now, most⟩ := by
      simp [Brackets.step, hc]
    rw [List.foldl_cons, hstep, ih h.2]

theorem nests_blanks {t : Text} (h : t.all isBlank = true) : Nests t 0 := by
  apply nests_plain
  rw [List.all_eq_true] at h ⊢
  intro c hc
  have hblank := h c hc
  simp only [isBlank, Bool.or_eq_true, decide_eq_true_eq] at hblank
  rcases hblank with ((rfl | rfl) | rfl) | rfl <;> rfl

theorem digit_ne_quote {n : Nat} (h : n < 16) : Hex.digit n ≠ '"' ∧ Hex.digit n ≠ '\\' := by
  decide +revert

/-- Nothing between quotes counts. -/
theorem nests_quote (t : Text) : Nests (quote t) 0 := by
  -- between quotes, an escape ends in the state that it starts in
  have hchar (c : Char) (now most : Nat) :
      (escapeChar c).foldl Brackets.step ⟨true, false, now, most⟩ = ⟨true, false, now, most⟩ := by
    rcases escapeChar_cases c with ⟨e, henc, -⟩ | ⟨hc, henc⟩ | ⟨-, hquote, hback, henc⟩
    · rw [henc]
      rfl
    · have hhigh := digit_ne_quote (n := c.toNat / 16) (by omega)
      have hlow := digit_ne_quote (n := c.toNat % 16) (by omega)
      simp [henc, Brackets.step, hhigh, hlow]
    · simp [henc, Brackets.step, hquote, hback]
  intro now most h
  have hinside : (t.flatMap escapeChar).foldl Brackets.step ⟨true, false, now, most⟩
      = ⟨true, false, now, most⟩ := by
    induction t with
    | nil => rfl
    | cons c t ih => rw [List.flatMap_cons, List.foldl_append, hchar, ih]
  have hclose : Brackets.step ⟨true, false, now, most⟩ '"' = ⟨false, false, now, most⟩ := rfl
  rw [Nat.add_zero, Nat.max_eq_left h, quote, List.foldl_append]
  show List.foldl Brackets.step
    ((t.flatMap escapeChar).foldl Brackets.step ⟨true, false, now, most⟩) ['"'] = _
  rw [hinside, List.foldl_cons, hclose, List.foldl_nil]

/-- None of the few characters that are not plain spells a number. -/
theorem isPlain_of_isNumberChar {c : Char} (h : isNumberChar c = true) : isPlain c = true := by
  simp only [isPlain, Bool.and_eq_true, decide_eq_true_eq]
  refine ⟨⟨⟨⟨?_, ?_⟩, ?_⟩, ?_⟩, ?_⟩ <;> rintro rfl <;> cases h

theorem nests_printNumber (x : Binary64) : Nests (printNumber x) 0 := by
  apply nests_plain
  rw [printNumber]
  split
  next =>
    rw [List.all_eq_true]
    intro c hc
    exact isPlain_of_isNumberChar (List.all_eq_true.mp (Style.all_write .document x) c hc)
  next => decide

/-! ## The text of a value -/

section Print

variable {layout : Layout} (hlayout : layout.IsBlank)

include hlayout

/-- A pair of brackets is one more than what is nested in the parts. -/
theorem nests_bracketed (depth : Nat) {left right : Char}
    (hpair : (left = '[' ∧ right = ']') ∨ (left = '\x7b' ∧ right = '\x7d')) {xs : List Text}
    {k : Nat} (hxs : Nests (spread layout (depth + 1) true xs) k) :
    Nests (bracketed layout depth left right xs) (1 + k) := by
  obtain ⟨bs, hbs, htext⟩ := exists_bracketed_eq hlayout depth left right xs
  have hinside : Nests (spread layout (depth + 1) true xs ++ bs) k := by
    have hparts := hxs.append (nests_blanks hbs)
    rwa [Nat.max_zero] at hparts
  intro now most h
  have hopen : Brackets.step ⟨false, false, now, most⟩ left
      = ⟨false, false, now + 1, max most (now + 1)⟩ := by
    rcases hpair with ⟨rfl, -⟩ | ⟨rfl, -⟩ <;> rfl
  have hclose (most : Nat) : Brackets.step ⟨false, false, now + 1, most⟩ right
      = ⟨false, false, now, most⟩ := by
    rcases hpair with ⟨-, rfl⟩ | ⟨-, rfl⟩ <;> rfl
  rw [htext, List.foldl_cons, hopen, ← List.append_assoc, List.foldl_append,
    hinside _ _ (by omega), List.foldl_cons, hclose, List.foldl_nil]
  congr 1
  omega

theorem nests_spread_cons (depth : Nat) (first : Bool) {x : Text} {xs : List Text} {k l : Nat}
    (hx : Nests x k) (hxs : Nests (spread layout depth false xs) l) :
    Nests (spread layout depth first (x :: xs)) (max k l) := by
  have hcomma : Nests (if first then [] else [',']) 0 := by
    cases first <;> exact nests_plain rfl
  have hparts := (hcomma.append (nests_blanks (hlayout.gap depth))).append (hx.append hxs)
  rwa [Nat.zero_max, Nat.zero_max] at hparts

theorem nests_field (key : Text) {v : Text} {k : Nat} (hv : Nests v k) :
    Nests (quote key ++ layout.colon ++ v) k := by
  obtain ⟨bs, hcolon, hbs⟩ := hlayout.colon
  have hpoint : Nests [':'] 0 := nests_plain rfl
  have hparts := ((nests_quote key).append (hpoint.append (nests_blanks hbs))).append hv
  rw [Nat.zero_max, Nat.zero_max, Nat.zero_max, List.singleton_append] at hparts
  rwa [hcolon]

mutual

/-- The text of a value is nested as the value is. -/
theorem nests_printAt : ∀ (j : Json) (depth : Nat), Nests (j.printAt layout depth) j.depth
  | .null, _ => nests_plain rfl
  | .bool b, _ => by cases b <;> exact nests_plain rfl
  | .number x, _ => nests_printNumber x
  | .string t, _ => nests_quote t
  | .array items, depth =>
    nests_bracketed hlayout depth (Or.inl ⟨rfl, rfl⟩) (nests_printItems items true (depth + 1))
  | .object fields, depth =>
    nests_bracketed hlayout depth (Or.inr ⟨rfl, rfl⟩) (nests_printFields fields true (depth + 1))

theorem nests_printItems : ∀ (js : List Json) (first : Bool) (depth : Nat),
    Nests (spread layout depth first (printItems layout depth js)) (depthAll js)
  | [], _, _ => nests_plain rfl
  | j :: js, first, depth =>
    nests_spread_cons hlayout depth first (nests_printAt j depth) (nests_printItems js false depth)

theorem nests_printFields : ∀ (fs : List (Text × Json)) (first : Bool) (depth : Nat),
    Nests (spread layout depth first (printFields layout depth fs)) (depthFields fs)
  | [], _, _ => nests_plain rfl
  | (key, j) :: fs, first, depth =>
    nests_spread_cons hlayout depth first (nests_field hlayout key (nests_printAt j depth))
      (nests_printFields fs false depth)

end

/-- The nesting of a text is that of its value. -/
theorem nesting_print (j : Json) : nesting (j.print layout) = j.depth :=
  (nests_printAt hlayout j 0).nesting

end Print

end SolidScript.Json
