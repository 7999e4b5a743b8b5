import SolidScript.Text.Basic

/-!
# Lines, their laws

The lines of texts that are put together with line feeds are the lines of each of them
(`split_append_lineFeed`, `split_join_eq_flatMap`). Without a line feed the two lines where they
meet become one (`split_append`). How many lines a reader counts depends on the last one
(`lineCount_eq`). `indent` moves a whole text to the right, line by line; to move a line
twice is to move it by both distances at once (`indentLine_indentLine`).
-/

namespace SolidScript.Text

/-! ## Cutting what was joined -/

theorem consLine_append (c : Char) {ls : List Text} (h : ls ≠ []) (ms : List Text) :
    consLine c (ls ++ ms) = consLine c ls ++ ms := by
  obtain ⟨l, ls, rfl⟩ := List.exists_cons_of_ne_nil h
  rw [List.cons_append, consLine, consLine]
  split <;> rfl

/-- A line feed keeps the lines before it apart from those behind it. -/
theorem split_append_lineFeed (t u : Text) : split (t ++ '\n' :: u) = split t ++ split u := by
  induction t with
  | nil => exact split_append_line (l := []) List.not_mem_nil u
  | cons c t ih =>
    rw [List.cons_append, split_cons, ih, consLine_append c (split_ne_nil t), split_cons]

theorem join_cons_cons (l m : Text) (ls : List Text) :
    join (l :: m :: ls) = l ++ '\n' :: join (m :: ls) := intercalate_cons_cons ['\n'] l m ls

/-- The lines of joined texts are the lines of each of the texts. -/
theorem split_join_eq_flatMap {ts : List Text} (h : ts ≠ []) :
    split (join ts) = ts.flatMap split := by
  induction ts with
  | nil => exact absurd rfl h
  | cons t ts ih =>
    cases ts with
    | nil => simp [join]
    | cons u us =>
      rw [join_cons_cons, split_append_lineFeed, ih (List.cons_ne_nil u us),
        List.flatMap_cons (x := t)]

/-- Lines that are ended by line feeds come before the lines of what follows. -/
theorem split_flatMap_line {ls : List Text} (h : ∀ l ∈ ls, '\n' ∉ l) (t : Text) :
    split (ls.flatMap (fun l => l ++ ['\n']) ++ t) = ls ++ split t := by
  induction ls with
  | nil => rfl
  | cons l ls ih =>
    rw [List.forall_mem_cons] at h
    rw [List.flatMap_cons, List.append_assoc, List.append_assoc, List.singleton_append,
      split_append_line h.1, ih h.2, List.cons_append]

theorem join_append {ls ms : List Text} (hls : ls ≠ []) (hms : ms ≠ []) :
    join (ls ++ ms) = join ls ++ '\n' :: join ms := by
  induction ls with
  | nil => exact absurd rfl hls
  | cons l ls ih =>
    cases ls with
    | nil =>
      obtain ⟨m, ms, rfl⟩ := List.exists_cons_of_ne_nil hms
      rw [List.singleton_append, join_cons_cons]
      simp [join]
    | cons k ks =>
      rw [List.cons_append, List.cons_append, join_cons_cons, ← List.cons_append, ih (by simp),
        join_cons_cons, List.append_assoc, List.cons_append]

/-- There is no line feed in a line. -/
theorem notMem_of_mem_split {t l : Text} (h : l ∈ split t) : '\n' ∉ l := by
  induction t generalizing l with
  | nil =>
    rw [List.mem_singleton.mp h]
    exact List.not_mem_nil
  | cons c t ih =>
    rw [split_cons] at h
    cases hs : split t with
    | nil => exact absurd hs (split_ne_nil t)
    | cons m ms =>
      rw [hs] at ih h
      rw [List.forall_mem_cons] at ih
      rw [consLine] at h
      split at h
      next =>
        rcases List.mem_cons.mp h with rfl | h
        · exact List.not_mem_nil
        · rcases List.mem_cons.mp h with rfl | h
          · exact ih.1
          · exact ih.2 l h
      next hc =>
        rcases List.mem_cons.mp h with rfl | h
        · exact List.not_mem_cons_of_ne_of_not_mem (Ne.symm hc) ih.1
        · exact ih.2 l h

/-- The line on which a text starts. -/
def firstLine (t : Text) : Text := (split t).head (split_ne_nil t)

/-- The line on which a text ends. -/
def lastLine (t : Text) : Text := (split t).getLast (split_ne_nil t)

/-- The last line of a text and the first one of the text behind it are one line. -/
theorem split_append (t u : Text) :
    split (t ++ u) = (split t).dropLast ++ (lastLine t ++ firstLine u) :: (split u).tail := by
  induction t with
  | nil => exact (List.cons_head_tail (split_ne_nil u)).symm
  | cons c t ih =>
    obtain ⟨l, ls, hs⟩ := List.exists_cons_of_ne_nil (split_ne_nil t)
    rw [List.cons_append, split_cons, ih]
    simp only [lastLine, split_cons, hs]
    by_cases hc : c = '\n'
    · cases ls <;> simp [consLine, hc]
    · cases ls <;> simp [consLine, hc]

/-- The empty text is the only one that is nothing but one empty line. -/
theorem split_eq_blank_iff (t : Text) : split t = [[]] ↔ t = [] := by
  constructor
  · intro h
    rw [← join_split t, h]
    rfl
  · rintro rfl
    rfl

/-! ## Counting -/

/-- The last line is empty where nothing stands behind the last line feed. -/
theorem getLast?_split_eq_blank_iff (t : Text) :
    (split t).getLast? = some [] ↔ t.getLast? = none ∨ t.getLast? = some '\n' := by
  constructor
  · intro h
    obtain ⟨ls, hls⟩ := List.getLast?_eq_some_iff.mp h
    have ht : join (ls ++ [[]]) = t := hls ▸ join_split t
    by_cases hne : ls = []
    · left
      rw [← ht, hne]
      rfl
    · right
      rw [← ht, join_append hne (List.cons_ne_nil [] [])]
      exact List.getLast?_concat
  · rintro (h | h)
    · rw [List.getLast?_eq_none_iff.mp h]
      rfl
    · obtain ⟨u, rfl⟩ := List.getLast?_eq_some_iff.mp h
      rw [split_append_lineFeed u []]
      exact List.getLast?_concat

/-- The lines that a reader counts are all but an empty one at the end. -/
theorem lineCount_eq (t : Text) : lineCount t
    = (split t).length - if ((split t).map List.isEmpty).getLast? = some true then 1 else 0 := by
  have hlast : ((split t).map List.isEmpty).getLast? = some true
      ↔ t.getLast? = none ∨ t.getLast? = some '\n' := by
    rw [← getLast?_split_eq_blank_iff, List.getLast?_map]
    simp
  simp only [hlast]
  rw [lineCount]
  split
  next h =>
    rw [h, if_pos (.inl rfl), List.getLast?_eq_none_iff.mp h]
    rfl
  next h => rw [h, if_pos (.inr rfl)]
  next c hc h => rw [h, if_neg (by simpa using hc), Nat.sub_zero]

/-! ## Moving to the right -/

theorem indentation_add (d e : Nat) : indentation (d + e) = indentation d ++ indentation e := by
  rw [indentation, indentation, indentation, List.replicate_append_replicate, Nat.mul_add]

theorem indentLine_nil (d : Nat) : indentLine d [] = [] := rfl

theorem indentLine_of_ne_nil (d : Nat) {l : Text} (h : l ≠ []) :
    indentLine d l = indentation d ++ l := by
  rw [indentLine, if_neg (by simpa using h)]

theorem indentLine_eq_nil_iff (d : Nat) (l : Text) : indentLine d l = [] ↔ l = [] := by
  by_cases h : l = []
  · simp [h, indentLine_nil]
  · simp [h, indentLine_of_ne_nil d h]

theorem indentLine_zero (l : Text) : indentLine 0 l = l := by
  by_cases h : l = []
  · rw [h, indentLine_nil]
  · rw [indentLine_of_ne_nil 0 h]
    rfl

/-- A line that is moved twice is moved by both distances at once. -/
theorem indentLine_indentLine (d e : Nat) (l : Text) :
    indentLine d (indentLine e l) = indentLine (d + e) l := by
  by_cases h : l = []
  · rw [h, indentLine_nil, indentLine_nil, indentLine_nil]
  · have he : indentLine e l ≠ [] := mt (indentLine_eq_nil_iff e l).mp h
    rw [indentLine_of_ne_nil d he, indentLine_of_ne_nil e h, indentLine_of_ne_nil _ h,
      indentation_add, List.append_assoc]

theorem notMem_indentLine (d : Nat) {l : Text} (h : '\n' ∉ l) : '\n' ∉ indentLine d l := by
  rw [indentLine]
  split
  next => exact List.not_mem_nil
  next => simp [indentation, h]

/-- A text moved `depth` blocks to the right. Empty lines stay empty. -/
def indent (depth : Nat) (t : Text) : Text := join ((split t).map (indentLine depth))

end SolidScript.Text
