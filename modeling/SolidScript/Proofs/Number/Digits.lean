import Mathlib.Algebra.Group.Nat.Defs
import SolidScript.Number.Style

/-!
# Digits, their laws

A whole number is read back from its digits (`ofDigits_digits`), which start with a zero only if
they are nothing else. A number of any style is spelled with few characters (`all_write`): digits,
point, signs, the mark of an exponent, and the letters of two words.
-/

namespace SolidScript

theorem ofDigits_eq (ds : Text) : ofDigits ds = Nat.ofDigitChars 10 ds 0 := rfl

theorem ofDigits_digits (n : Nat) : ofDigits (digits n) = n := by
  rw [ofDigits_eq, digits, Nat.ofDigitChars_ten_toDigits]

theorem digits_injective : Function.Injective digits := by
  intro m n h
  rw [← ofDigits_digits m, h, ofDigits_digits]

theorem isDigit_of_mem_digits {n : Nat} {c : Char} (h : c ∈ digits n) : c.isDigit = true :=
  Nat.isDigit_of_mem_toDigits (by decide) (by decide) h

theorem digits_ne_nil (n : Nat) : digits n ≠ [] := Nat.toDigits_ne_nil

/-- Digits followed by more digits: the first number moves up by as many places. -/
theorem ofDigits_append (ds es : Text) :
    ofDigits (ds ++ es) = ofDigits ds * 10 ^ es.length + ofDigits es := by
  rw [ofDigits_eq, Nat.ofDigitChars_append, Nat.ofDigitChars_eq_ofDigitChars_zero, Nat.mul_comm]
  rfl

theorem ofDigits_replicate_zero (n : Nat) : ofDigits (List.replicate n '0') = 0 := by
  rw [ofDigits_eq, Nat.ofDigitChars_replicate_zero, Nat.mul_zero]

/-- A zero in front stands alone. -/
theorem head?_digits_ne_zero {n : Nat} (h : n ≠ 0) : (digits n).head? ≠ some '0' := by
  induction n using Nat.strongRecOn with
  | _ n ih =>
    rw [digits, Nat.toDigits_eq_if (by decide)]
    split
    · simp [h]
    · have hq := ih (n / 10) (by omega) (by omega)
      -- the first digit is that of the quotient
      obtain ⟨c, r, hcr⟩ := List.exists_cons_of_ne_nil (digits_ne_nil (n / 10))
      rw [hcr] at hq
      rw [digits] at hcr
      rw [hcr]
      exact hq

/-! ## The characters of numbers -/

/-- The characters that numbers are spelled with, in any style. -/
def isNumberChar (c : Char) : Bool := c.isDigit || ".-+eNaNinf".toList.contains c

theorem isNumberChar_of_isDigit {c : Char} (h : c.isDigit = true) : isNumberChar c = true := by
  simp [isNumberChar, h]

theorem all_digits (n : Nat) : (digits n).all isNumberChar = true :=
  List.all_eq_true.mpr fun _ h => isNumberChar_of_isDigit (isDigit_of_mem_digits h)

namespace Style

theorem all_zeros (n : Nat) : (zeros n).all isNumberChar = true := by
  rw [zeros, List.all_eq_true]
  intro c hc
  rw [(List.mem_replicate.mp hc).2]
  rfl

theorem all_take {t : Text} (h : t.all isNumberChar = true) (n : Nat) :
    (t.take n).all isNumberChar = true :=
  List.all_eq_true.mpr fun c hc => List.all_eq_true.mp h c (List.mem_of_mem_take hc)

theorem all_drop {t : Text} (h : t.all isNumberChar = true) (n : Nat) :
    (t.drop n).all isNumberChar = true :=
  List.all_eq_true.mpr fun c hc => List.all_eq_true.mp h c (List.mem_of_mem_drop hc)

theorem all_place (style : Style) {ds : Text} (h : ds.all isNumberChar = true) (e : Int) :
    (style.place ds e).all isNumberChar = true := by
  have hpoint : isNumberChar '.' = true := rfl
  have hzero : isNumberChar '0' = true := rfl
  simp only [place]
  split
  · simp [h, all_zeros, hpoint, hzero]
  · split
    · cases style.pointZero <;> simp [h, all_zeros, hpoint, hzero]
    · simp [all_take h, all_drop h, hpoint]

theorem all_scientific {ds : Text} (h : ds.all isNumberChar = true) (e : Int) :
    (scientific ds e).all isNumberChar = true := by
  have hmarks : isNumberChar 'e' = true ∧ isNumberChar '-' = true ∧ isNumberChar '+' = true
      ∧ isNumberChar '.' = true := by decide
  simp only [scientific, List.all_append, List.all_cons, Bool.and_eq_true]
  refine ⟨⟨all_take h 1, ?_⟩, hmarks.1, ?_, all_digits _⟩
  · split
    · rfl
    · rw [List.all_cons, hmarks.2.2.2, all_drop h 1]
      rfl
  · split
    · exact hmarks.2.1
    · exact hmarks.2.2.1

theorem all_magnitude (style : Style) (x : Binary64) :
    (style.magnitude x).all isNumberChar = true := by
  simp only [magnitude, layOut]
  split
  · exact all_place style (by decide) 0
  · split
    · exact all_place style (all_digits _) _
    · exact all_scientific (all_digits _) _

/-- Numbers are spelled with few characters. -/
theorem all_write (style : Style) (x : Binary64) : (style.write x).all isNumberChar = true := by
  have hminus : isNumberChar '-' = true := rfl
  have hbody : (if x.isInfinite = true then ['i', 'n', 'f'] else style.magnitude x).all
      isNumberChar = true := by
    split
    · decide
    · exact all_magnitude style x
  simp only [write]
  split
  · decide
  · split
    · rw [List.all_cons, hminus, hbody]
      rfl
    · exact hbody

theorem place_ne_nil (style : Style) {ds : Text} (h : ds ≠ []) (e : Int) :
    style.place ds e ≠ [] := by
  simp only [place]
  split
  · simp
  · split
    · simp [h]
    · simp

theorem scientific_ne_nil (ds : Text) (e : Int) : scientific ds e ≠ [] := by
  simp [scientific]

/-- No number is spelled with nothing. -/
theorem write_ne_nil (style : Style) (x : Binary64) : style.write x ≠ [] := by
  have hbody : (if x.isInfinite = true then ['i', 'n', 'f'] else style.magnitude x) ≠ [] := by
    simp only [magnitude, layOut]
    split
    · simp
    · split
      · exact place_ne_nil style (by simp) 0
      · split
        · exact place_ne_nil style (digits_ne_nil _) _
        · exact scientific_ne_nil _ _
  simp only [write]
  split
  · simp
  · split
    · simp
    · exact hbody

end Style

end SolidScript
