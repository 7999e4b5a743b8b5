import SolidScript.Pattern.CharSet

/-!
# Patterns

What a text may have to hold somewhere. A pattern relates places in a text, which are counted from
zero: the places where it may start and those where it may then end. `reach` computes all ends from
a set of starts at once, so a pattern that may be met in many ways costs no more than another.
-/

namespace SolidScript

/-- A condition on a place in a text. Words are made of letters, digits and the low line. -/
inductive Pattern.Place where
  | textStart
  | textEnd
  /-- The start of a line. `returns` says that a carriage return ends a line as well. -/
  | lineStart (returns : Bool)
  | lineEnd (returns : Bool)
  /-- Between a word and something else. -/
  | wordEdge
  | noWordEdge
  | wordStart
  | wordEnd
  /-- Behind no word. -/
  | wordStartHalf
  /-- Before no word. -/
  | wordEndHalf
deriving DecidableEq, Repr

inductive Pattern where
  | nothing
  | char (set : CharSet)
  | spot (place : Pattern.Place)
  | seq (p q : Pattern)
  | either (p q : Pattern)
  /-- A pattern several times in a row: `least` times or more, and `most` times or less. -/
  | times (p : Pattern) (least : Nat) (most : Option Nat)
deriving DecidableEq, Repr

namespace Pattern

/-- The code points of characters that words are made of. -/
def wordChars : CharSet := .ofRanges [(0x30, 0x39), (0x41, 0x5A), (0x5F, 0x5F), (0x61, 0x7A)]

/-- The character before a place. -/
def before (t : Array Char) (i : Nat) : Option Char := if i = 0 then none else t[i - 1]?

/-- A place in a text meets a condition. -/
def Place.isAt (place : Place) (t : Array Char) (i : Nat) : Bool :=
  let wordBefore := (before t i).any fun c => wordChars.holds c.toNat
  let wordBehind := t[i]?.any fun c => wordChars.holds c.toNat
  match place with
  | textStart => i = 0
  | textEnd => i = t.size
  | lineStart returns =>
    i = 0 || before t i = some '\n'
      || (returns && before t i = some '\r' && t[i]? ≠ some '\n')
  | lineEnd returns =>
    i = t.size || (returns && t[i]? = some '\r')
      || (t[i]? = some '\n' && !(returns && before t i = some '\r'))
  | wordEdge => wordBefore != wordBehind
  | noWordEdge => wordBefore == wordBehind
  | wordStart => !wordBefore && wordBehind
  | wordEnd => wordBefore && !wordBehind
  | wordStartHalf => !wordBefore
  | wordEndHalf => !wordBehind

/-- The members of two ascending lists, in ascending order. -/
def merge : List Nat → List Nat → List Nat
  | [], js => js
  | is, [] => is
  | i :: is, j :: js =>
    if i < j then i :: merge is (j :: js)
    else if j < i then j :: merge (i :: is) js
    else i :: merge is js

/-- A step taken `n` times. -/
def again (step : List Nat → List Nat) : Nat → List Nat → List Nat
  | 0, is => is
  | n + 1, is => if is.isEmpty then [] else again step n (step is)

/-- The places that are reached in `n` steps or fewer from those of `fresh`, and those of `seen`. -/
def spread (step : List Nat → List Nat) : Nat → List Nat → List Nat → List Nat
  | 0, seen, _ => seen
  | n + 1, seen, fresh =>
    let next := (step fresh).filter fun i => !seen.contains i
    if next.isEmpty then seen else spread step n (merge seen next) next

/-- The places where a pattern may end that starts at one of the given places. Both lists ascend.
A step never leads back, so a run of more steps than there are places stays somewhere, and has as
many steps as one likes: no number of repetitions above that makes a difference. -/
def reach (t : Array Char) : Pattern → List Nat → List Nat
  | nothing, is => is
  | char set, is => (is.filter fun i => t[i]?.any fun c => set.holds c.toNat).map (· + 1)
  | spot place, is => is.filter fun i => place.isAt t i
  | seq p q, is => reach t q (reach t p is)
  | either p q, is => merge (reach t p is) (reach t q is)
  | times p least most, is =>
    let rounds := t.size + 1
    let is := again (reach t p) (min least rounds) is
    spread (reach t p) (min ((most.map (· - least)).getD rounds) rounds) is is

/-- The pattern stands somewhere in the text. -/
def isIn (p : Pattern) (t : Text) : Bool :=
  !(reach t.toArray p (List.range (t.length + 1))).isEmpty

theorem mem_merge {i : Nat} {is js : List Nat} : i ∈ merge is js ↔ i ∈ is ∨ i ∈ js := by
  fun_induction merge is js with
  | case1 => simp
  | case2 => simp
  | case3 a as b bs h ih => simp [ih]; grind
  | case4 a as b bs h h' ih => simp [ih]; grind
  | case5 a as b bs h h' ih => simp [ih]; grind

/-- Nothing stands in every text. -/
theorem isIn_nothing (t : Text) : isIn nothing t = true := by
  simp [isIn, reach, List.range_succ]

/-- A set stands in a text if one of the characters there is in it. -/
theorem isIn_char (set : CharSet) (t : Text) :
    isIn (char set) t = t.any fun c => set.holds c.toNat := by
  rw [Bool.eq_iff_iff]
  simp only [isIn, reach, List.isEmpty_map, Bool.not_eq_true', List.isEmpty_eq_false_iff_exists_mem,
    List.mem_filter, List.mem_range, List.getElem?_toArray, List.any_eq_true]
  constructor
  · rintro ⟨i, _, h⟩
    obtain ⟨c, hc, h⟩ := (Option.any_eq_true _ _).1 h
    exact ⟨c, List.mem_of_getElem? hc, h⟩
  · rintro ⟨c, hc, h⟩
    obtain ⟨i, hi⟩ := List.mem_iff_getElem?.1 hc
    refine ⟨i, ?_, by simp [hi, h]⟩
    have := (List.getElem?_eq_some_iff.1 hi).1
    omega

/-- One of two patterns stands in a text if either does. -/
theorem isIn_either (p q : Pattern) (t : Text) : isIn (either p q) t = (isIn p t || isIn q t) := by
  have nil_iff (is js : List Nat) : merge is js = [] ↔ is = [] ∧ js = [] := by
    simp only [List.eq_nil_iff_forall_not_mem, mem_merge]
    grind
  rw [Bool.eq_iff_iff]
  simp [isIn, reach, nil_iff]
  grind

end Pattern

end SolidScript
