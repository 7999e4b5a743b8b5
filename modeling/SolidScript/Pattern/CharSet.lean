import SolidScript.Text.Basic

/-!
# Sets of characters

A set is kept as it is put together, from ranges of code points. `holds` decides membership, and
each operation is the operation of that name on the members.
-/

namespace SolidScript

/-- A set of code points. -/
inductive CharSet where
  | empty
  /-- All from one code point to another, both included. -/
  | range (first last : Nat)
  | union (s t : CharSet)
  | inter (s t : CharSet)
  | diff (s t : CharSet)
  /-- What is in one of two sets alone. -/
  | symmDiff (s t : CharSet)
  | compl (s : CharSet)
  /-- A set and the letters that differ from one in it by their case. -/
  | anyCase (s : CharSet)
deriving DecidableEq, Repr

namespace CharSet

/-- The code point of the same letter in the other case, for the letters from `A` to `Z`. -/
def otherCase (n : Nat) : Nat :=
  if 0x41 ≤ n ∧ n ≤ 0x5A then n + 0x20
  else if 0x61 ≤ n ∧ n ≤ 0x7A then n - 0x20
  else n

/-- The code point is in the set. -/
def holds : CharSet → Nat → Bool
  | empty, _ => false
  | range first last, n => first ≤ n && n ≤ last
  | union s t, n => s.holds n || t.holds n
  | inter s t, n => s.holds n && t.holds n
  | diff s t, n => s.holds n && !t.holds n
  | symmDiff s t, n => s.holds n != t.holds n
  | compl s, n => !s.holds n
  | anyCase s, n => s.holds n || s.holds (otherCase n)

/-- The set of one character. -/
def single (c : Char) : CharSet := range c.toNat c.toNat

/-- The set of all characters. -/
def full : CharSet := compl empty

/-- The union of some ranges. -/
def ofRanges (rs : List (Nat × Nat)) : CharSet :=
  rs.foldr (fun r s => union (range r.1 r.2) s) empty

/-- As a set of bytes, the set holds one that is no character by itself. -/
def holdsHighByte (s : CharSet) : Bool := (List.range 0x80).any fun n => s.holds (0x80 + n)

/-- The other case of the other case is the letter itself. -/
theorem otherCase_otherCase (n : Nat) : otherCase (otherCase n) = n := by
  unfold otherCase
  split <;> split <;> (try split) <;> omega

/-- In a set without regard to case, a letter is there in both cases or in none. -/
theorem holds_anyCase_otherCase (s : CharSet) (n : Nat) :
    (anyCase s).holds (otherCase n) = (anyCase s).holds n := by
  simp [holds, otherCase_otherCase, Bool.or_comm]

theorem holds_single (c d : Char) : (single c).holds d.toNat = true ↔ d = c := by
  simp only [single, holds, Bool.and_eq_true, decide_eq_true_eq]
  exact ⟨fun ⟨h, h'⟩ => Char.ext (UInt32.toNat.inj (Nat.le_antisymm h' h)), fun h => by simp [h]⟩

theorem holds_full (n : Nat) : full.holds n = true := rfl

theorem holds_ofRanges (rs : List (Nat × Nat)) (n : Nat) :
    (ofRanges rs).holds n = rs.any fun r => r.1 ≤ n && n ≤ r.2 := by
  induction rs with
  | nil => rfl
  | cons r rs ih => simp [ofRanges, holds, ← ih]

end CharSet

end SolidScript
