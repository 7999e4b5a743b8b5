import SolidScript.Number.Whole
import SolidScript.Text.Blank

/-!
# Whole numbers as they are typed

`Spells` says how a whole number is typed: a plus sign if one likes, and at least one digit, with
any number of zeros in front. A number of thirty-two bits is read from such a text exactly if it is
one (`word32?_eq_some_iff`), so none is wrapped. Blanks around a text are taken off it and nothing
else is (`exists_blanks_trim`, `trim_append`).
-/

namespace SolidScript

namespace Whole

/-- The text is a plus sign, if one likes, and at least one digit, and these come to the number. -/
def Spells (t : Text) (n : Nat) : Prop :=
  ∃ sign ds, t = sign ++ ds ∧ (sign = [] ∨ sign = ['+']) ∧ ds ≠ []
    ∧ (∀ c ∈ ds, c.isDigit = true) ∧ ofDigits ds = n

theorem Spells.ne_nil {t : Text} {n : Nat} (h : Spells t n) : t ≠ [] := by
  obtain ⟨sign, ds, rfl, -, hne, -⟩ := h
  exact List.append_ne_nil_of_right_ne_nil sign hne

theorem not_isBlank_of_isDigit {c : Char} (h : c.isDigit = true) : Text.isBlank c = false := by
  rw [Char.isDigit, Bool.and_eq_true, decide_eq_true_eq, decide_eq_true_eq] at h
  have hlow : 48 ≤ c.toNat := h.1
  have hhigh : c.toNat ≤ 57 := h.2
  simp only [Text.isBlank, Text.blankRanges, List.any_cons, List.any_nil, Bool.or_eq_false_iff,
    Bool.and_eq_false_iff, decide_eq_false_iff_not, and_true]
  omega

theorem Spells.not_isBlank {t : Text} {n : Nat} (h : Spells t n) :
    ∀ c ∈ t, Text.isBlank c = false := by
  obtain ⟨sign, ds, rfl, hsign, -, hdigits, -⟩ := h
  intro c hc
  rcases List.mem_append.mp hc with hc | hc
  · rcases hsign with rfl | rfl
    · cases hc
    · rw [List.mem_singleton.mp hc]
      decide
  · exact not_isBlank_of_isDigit (hdigits c hc)

theorem natural?_eq_some_iff {t : Text} {n : Nat} :
    natural? t = some n ↔ t ≠ [] ∧ (∀ c ∈ t, c.isDigit = true) ∧ ofDigits t = n := by
  rw [natural?, Option.ite_none_right_eq_some]
  simp [and_assoc]

theorem spells_plus_iff {ds : Text} {n : Nat} : Spells ('+' :: ds) n ↔ natural? ds = some n := by
  rw [natural?_eq_some_iff]
  constructor
  · rintro ⟨sign, es, heq, rfl | rfl, hne, hdigits, hn⟩
    · -- a plus sign is no digit
      subst heq
      exact absurd (hdigits '+' List.mem_cons_self) (by decide)
    · cases heq
      exact ⟨hne, hdigits, hn⟩
  · rintro ⟨hne, hdigits, hn⟩
    exact ⟨['+'], ds, rfl, .inr rfl, hne, hdigits, hn⟩

theorem spells_plain_iff {t : Text} (h : ∀ ds, t ≠ '+' :: ds) {n : Nat} :
    Spells t n ↔ natural? t = some n := by
  rw [natural?_eq_some_iff]
  constructor
  · rintro ⟨sign, ds, rfl, rfl | rfl, hne, hdigits, hn⟩
    · exact ⟨hne, hdigits, hn⟩
    · exact absurd rfl (h ds)
  · rintro ⟨hne, hdigits, hn⟩
    exact ⟨[], t, rfl, .inl rfl, hne, hdigits, hn⟩

/-- A number of thirty-two bits is read from the texts that spell it, and from no others. -/
theorem word32?_eq_some_iff {t : Text} {n : UInt32} :
    word32? t = some n ↔ Spells t n.toNat := by
  have hfits (k : Nat) :
      (if k < UInt32.size then some (UInt32.ofNat k) else none) = some n
        ↔ some k = some n.toNat := by
    rw [Option.ite_none_right_eq_some, Option.some_inj, Option.some_inj]
    constructor
    · rintro ⟨hk, rfl⟩
      exact (UInt32.toNat_ofNat_of_lt' hk).symm
    · rintro rfl
      exact ⟨n.toNat_lt, UInt32.ofNat_toNat⟩
  unfold word32?
  split
  next ds =>
    rw [spells_plus_iff]
    cases natural? ds with
    | none => simp
    | some k => exact hfits k
  next h =>
    rw [spells_plain_iff h]
    cases natural? t with
    | none => simp
    | some k => exact hfits k

end Whole

namespace Text

theorem exists_blanks_trimStart (t : Text) :
    ∃ before, t = before ++ t.trimStart ∧ ∀ c ∈ before, isBlank c = true :=
  ⟨t.takeWhile isBlank, List.takeWhile_append_dropWhile.symm,
    List.all_eq_true.mp List.all_takeWhile⟩

theorem exists_blanks_trimEnd (t : Text) :
    ∃ after, t = t.trimEnd ++ after ∧ ∀ c ∈ after, isBlank c = true := by
  obtain ⟨before, heq, hblank⟩ := exists_blanks_trimStart t.reverse
  refine ⟨before.reverse, ?_, by simpa using hblank⟩
  rw [trimEnd, ← List.reverse_append, ← heq, List.reverse_reverse]

/-- Nothing but blanks is taken off a text. -/
theorem exists_blanks_trim (t : Text) :
    ∃ before after, t = before ++ t.trim ++ after ∧ (∀ c ∈ before, isBlank c = true)
      ∧ ∀ c ∈ after, isBlank c = true := by
  obtain ⟨before, hbefore, hblank⟩ := exists_blanks_trimStart t
  obtain ⟨after, hafter, hblank'⟩ := exists_blanks_trimEnd t.trimStart
  refine ⟨before, after, ?_, hblank, hblank'⟩
  rw [trim, List.append_assoc, ← hafter]
  exact hbefore

theorem trimStart_append {before t : Text} (hbefore : ∀ c ∈ before, isBlank c = true)
    (hhead : ∀ c ∈ t.head?, isBlank c = false) : trimStart (before ++ t) = t := by
  rw [trimStart, List.dropWhile_append_of_pos hbefore]
  cases t with
  | nil => rfl
  | cons c t => rw [List.dropWhile_cons_of_neg (by simp [hhead c rfl])]

/-- Blanks around a text without blanks are taken off it. -/
theorem trim_append {before core after : Text} (hne : core ≠ [])
    (hbefore : ∀ c ∈ before, isBlank c = true) (hcore : ∀ c ∈ core, isBlank c = false)
    (hafter : ∀ c ∈ after, isBlank c = true) : trim (before ++ core ++ after) = core := by
  obtain ⟨c, cs, rfl⟩ := List.exists_cons_of_ne_nil hne
  have hstart : trimStart (before ++ c :: cs ++ after) = c :: cs ++ after := by
    rw [List.append_assoc]
    exact trimStart_append hbefore (by simpa using hcore c List.mem_cons_self)
  have hend : trimStart (after.reverse ++ (c :: cs).reverse) = (c :: cs).reverse := by
    refine trimStart_append (by simpa using hafter) fun d hd => hcore d ?_
    exact List.mem_reverse.mp (List.mem_of_mem_head? hd)
  rw [trim, hstart, trimEnd, List.reverse_append, hend, List.reverse_reverse]

end Text

end SolidScript
