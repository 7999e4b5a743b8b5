import SolidScript.Json
import SolidScript.Json.Lexeme

/-!
# Strings are read back

Every character is written as itself, as a backslash and a letter, or as a backslash and its code,
and each of the three is read as one character (`stringFrom_escapeChar`). A quote inside a string is
never written as such, so the first one behind it is its end (`stringBody_quote`).
-/

namespace SolidScript.Json

theorem escapeChar_cases (c : Char) :
    (∃ e, escapeChar c = ['\\', e] ∧ e ≠ 'u' ∧ shortEscape? e = some c)
      ∨ (c.toNat < 0x20 ∧ escapeChar c
          = ['\\', 'u', '0', '0', Hex.digit (c.toNat / 16), Hex.digit (c.toNat % 16)])
      ∨ (¬c.toNat < 0x20 ∧ c ≠ '"' ∧ c ≠ '\\' ∧ escapeChar c = [c]) := by
  unfold escapeChar
  split
  · exact Or.inl ⟨'"', rfl, by decide, rfl⟩
  · exact Or.inl ⟨'\\', rfl, by decide, rfl⟩
  · exact Or.inl ⟨'b', rfl, by decide, rfl⟩
  · exact Or.inl ⟨'f', rfl, by decide, rfl⟩
  · exact Or.inl ⟨'n', rfl, by decide, rfl⟩
  · exact Or.inl ⟨'r', rfl, by decide, rfl⟩
  · exact Or.inl ⟨'t', rfl, by decide, rfl⟩
  next hquote hback _ _ _ _ _ =>
    by_cases h : c.toNat < 0x20
    · exact Or.inr (Or.inl ⟨h, if_pos h⟩)
    · exact Or.inr (Or.inr ⟨h, hquote, hback, if_neg h⟩)

/-- Two digits make up a code below 256. -/
theorem hexUnit_digits {n : Nat} (h : n < 0x100) (r : Text) :
    hexUnit ('0' :: '0' :: Hex.digit (n / 16) :: Hex.digit (n % 16) :: r) = .ok (n, r) := by
  have hzero : Hex.value? '0' = some 0 := rfl
  have hhigh : Hex.value? (Hex.digit (n / 16)) = some (n / 16) := Hex.value?_digit (by omega)
  have hlow : Hex.value? (Hex.digit (n % 16)) = some (n % 16) := Hex.value?_digit (by omega)
  simp only [hexUnit, hzero, hhigh, hlow]
  congr 2
  omega

/-- What is written for a character is read as that character. -/
theorem stringFrom_escapeChar (fuel : Nat) (done : Text) (c : Char) (r : Text) :
    stringFrom (fuel + 1) done (escapeChar c ++ r) = stringFrom fuel (c :: done) r := by
  rcases escapeChar_cases c with ⟨e, henc, hu, he⟩ | ⟨hc, henc⟩ | ⟨hc, hquote, hback, henc⟩
  · have hescape : escape (e :: r) = .ok (c, r) := by
      rw [escape, if_neg hu, he]
    rw [henc, List.cons_append, List.singleton_append, stringFrom, if_neg (by decide),
      if_pos rfl, hescape]
  · have hunicode : unicodeEscape ('0' :: '0' :: Hex.digit (c.toNat / 16)
        :: Hex.digit (c.toNat % 16) :: r) = .ok (c, r) := by
      have hlow : isLowHalf c.toNat = false := by simp [isLowHalf]; omega
      have hhigh : isHighHalf c.toNat = false := by simp [isHighHalf]; omega
      simp only [unicodeEscape, hexUnit_digits (by omega : c.toNat < 0x100), hlow, hhigh,
        Char.ofNat_toNat]
      rfl
    rw [henc]
    simp only [List.cons_append, List.nil_append]
    rw [stringFrom, if_neg (by decide), if_pos rfl, escape, if_pos rfl, hunicode]
  · rw [henc, List.singleton_append, stringFrom, if_neg hquote, if_neg hback, if_neg hc]

theorem stringFrom_quoted {fuel : Nat} {t : Text} (h : t.length < fuel) (done r : Text) :
    stringFrom fuel done (t.flatMap escapeChar ++ '"' :: r) = .ok (done.reverse ++ t, r) := by
  induction t generalizing fuel done with
  | nil =>
    obtain ⟨fuel, rfl⟩ := Nat.exists_eq_add_one_of_ne_zero (Nat.ne_of_gt h)
    rw [List.flatMap_nil, List.nil_append, stringFrom, if_pos rfl, List.append_nil]
  | cons c t ih =>
    rw [List.length_cons] at h
    obtain ⟨fuel, rfl⟩ := Nat.exists_eq_add_one_of_ne_zero (n := fuel) (by omega)
    rw [List.flatMap_cons, List.append_assoc, stringFrom_escapeChar, ih (by omega)]
    simp

theorem length_le_length_escaped (t : Text) : t.length ≤ (t.flatMap escapeChar).length := by
  induction t with
  | nil => exact Nat.le_refl _
  | cons c t ih =>
    have hpos : 0 < (escapeChar c).length := by
      rcases escapeChar_cases c with ⟨e, henc, -⟩ | ⟨-, henc⟩ | ⟨-, -, -, henc⟩ <;> simp [henc]
    rw [List.flatMap_cons, List.length_append, List.length_cons]
    omega

theorem quote_append (t r : Text) :
    quote t ++ r = '"' :: (t.flatMap escapeChar ++ '"' :: r) := by
  simp [quote]

/-- **A string is read back** up to its closing quote. -/
theorem stringBody_quote {fuel : Nat} {t r : Text}
    (h : (t.flatMap escapeChar ++ '"' :: r).length < fuel) :
    stringBody fuel (t.flatMap escapeChar ++ '"' :: r) = .ok (t, r) := by
  have hlength := length_le_length_escaped t
  rw [List.length_append] at h
  rw [stringBody, stringFrom_quoted (by omega)]
  rfl

end SolidScript.Json
