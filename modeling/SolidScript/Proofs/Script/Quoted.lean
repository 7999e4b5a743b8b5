import SolidScript.Script.Quoted

/-!
# Quoted texts, read back

`Quoted.read` is the reader of a text between quotes, started behind the opening one. It stops at
the first quote that no backslash has taken. What `encode` writes is read back to the last
character, whatever stands behind the closing quote (`read_encode`), so a text cannot leave its
quotes.
-/

namespace SolidScript.Quoted

/-- What a backslash and the character behind it stand for. Five characters are escapes; a backslash
in front of any other stands for itself. -/
def unescape : Char → Text
  | '\\' => ['\\']
  | '"' => ['"']
  | 'n' => ['\n']
  | 't' => ['\t']
  | 'r' => ['\r']
  | c => ['\\', c]

/-- The text up to the closing quote, and the rest behind it. -/
def read : Text → Option (Text × Text)
  | [] => none
  | '"' :: r => some ([], r)
  | ['\\'] => none
  | '\\' :: c :: r => (read r).map fun (s, rest) => (unescape c ++ s, rest)
  | c :: r => (read r).map fun (s, rest) => (c :: s, rest)

/-- A character is written as an escape, or as itself where it is none of the three that a reader
takes notice of. -/
theorem encodeChar_cases (c : Char) :
    (∃ d, encodeChar c = ['\\', d] ∧ unescape d = [c] ∧ d ≠ '\n') ∨
      (encodeChar c = [c] ∧ c ≠ '"' ∧ c ≠ '\\' ∧ c ≠ '\n') := by
  simp only [encodeChar]
  split
  · exact Or.inl ⟨'\\', rfl, rfl, by decide⟩
  · exact Or.inl ⟨'"', rfl, rfl, by decide⟩
  · exact Or.inl ⟨'n', rfl, rfl, by decide⟩
  · exact Or.inl ⟨'t', rfl, rfl, by decide⟩
  · exact Or.inl ⟨'r', rfl, rfl, by decide⟩
  next hback hquote hline _ _ => exact Or.inr ⟨rfl, hquote, hback, hline⟩

theorem read_of_ordinary {c : Char} (hquote : c ≠ '"') (hback : c ≠ '\\') (r : Text) :
    read (c :: r) = (read r).map fun (s, rest) => (c :: s, rest) := by
  rw [read]
  · exact hquote
  · intro h
    exact absurd h hback
  · intro _ _ h
    exact absurd h hback

theorem read_encodeChar (c : Char) (r : Text) :
    read (encodeChar c ++ r) = (read r).map fun (s, rest) => (c :: s, rest) := by
  rcases encodeChar_cases c with ⟨d, henc, hd, -⟩ | ⟨henc, hquote, hback, -⟩
  · rw [henc]
    show (read r).map (fun (s, rest) => (unescape d ++ s, rest)) = _
    rw [hd]
    rfl
  · rw [henc, List.singleton_append, read_of_ordinary hquote hback]

/-- **A quoted text ends where it should** and is read back as it was. -/
theorem read_encode (t rest : Text) : read (encode t ++ '"' :: rest) = some (t, rest) := by
  induction t with
  | nil => rfl
  | cons c t ih => rw [encode_cons, List.append_assoc, read_encodeChar, ih, Option.map_some]

/-- Quoted texts can be told from what follows them. -/
theorem encode_append_quote_inj {s t u v : Text}
    (h : encode s ++ '"' :: u = encode t ++ '"' :: v) : s = t ∧ u = v := by
  have hread := congrArg read h
  rw [read_encode, read_encode, Option.some_inj, Prod.mk.injEq] at hread
  exact hread

/-- No character is written as one that ends a line or moves what follows it. -/
theorem ne_of_mem_encodeChar {c d : Char} (h : d ∈ encodeChar c) :
    d ≠ '\n' ∧ d ≠ '\t' ∧ d ≠ '\r' := by
  simp only [encodeChar] at h
  split at h
  case h_6 hline htab hreturn =>
    rw [List.mem_singleton.mp h]
    exact ⟨hline, htab, hreturn⟩
  all_goals
    simp only [List.mem_cons, List.not_mem_nil, or_false] at h
    rcases h with rfl | rfl <;> decide

theorem ne_of_mem_encode {t : Text} {d : Char} (h : d ∈ encode t) :
    d ≠ '\n' ∧ d ≠ '\t' ∧ d ≠ '\r' := by
  obtain ⟨c, -, hc⟩ := List.mem_flatMap.mp h
  exact ne_of_mem_encodeChar hc

/-- A quoted text stands on one line. -/
theorem notMem_encode (t : Text) : '\n' ∉ encode t := fun h => (ne_of_mem_encode h).1 rfl

end SolidScript.Quoted
