/-!
# Text

A text is a list of characters. This module holds the operations on lines that scripts are built
with: cutting at line feeds, joining with line feeds, indenting, and counting lines. Cutting and
joining are inverse to each other (`join_split`, `split_join`), so a text is its lines.
-/

namespace SolidScript

/-- A text, as the list of its characters. -/
abbrev Text := List Char

/-- A list of bytes: the content of a file, or a name given by the system. -/
abbrev Bytes := List UInt8

namespace Text

/-- The lines so far with one more character in front. -/
def consLine (c : Char) : List Text → List Text
  | [] => [[c]]
  | l :: ls => if c = '\n' then [] :: l :: ls else (c :: l) :: ls

/-- The lines between line feeds. A text without a line feed is its own only line, and the empty
text is one empty line. -/
def split (t : Text) : List Text := t.foldr consLine [[]]

/-- Lines with a line feed between each two. -/
def join (ls : List Text) : Text := List.intercalate ['\n'] ls

/-- Texts with a comma and a space between each two. -/
def commas (ts : List Text) : Text := List.intercalate [',', ' '] ts

/-- The space before a line that lies `depth` blocks deep: four blanks for each block. -/
def indentation (depth : Nat) : Text := List.replicate (4 * depth) ' '

/-- A line moved `depth` blocks to the right. An empty line stays empty. -/
def indentLine (depth : Nat) (line : Text) : Text :=
  if line.isEmpty then [] else indentation depth ++ line

/-- A text as a file or a stream holds it: with a line feed behind it. -/
def line (t : Text) : Text := t ++ ['\n']

/-- The number of lines that a reader of a finished text counts: what follows the last line feed
is a line only if something does. -/
def lineCount (t : Text) : Nat :=
  match t.getLast? with
  | none => 0
  | some '\n' => (split t).length - 1
  | some _ => (split t).length

section Separators

variable {α : Type} (sep x : List α)

theorem intercalate_cons_cons (y : List α) (xs : List (List α)) :
    List.intercalate sep (x :: y :: xs) = x ++ (sep ++ List.intercalate sep (y :: xs)) := by
  simp [List.intercalate]

/-- Parts with a separator between them are the first part and each other one with the separator in
front of it. -/
theorem intercalate_cons (xs : List (List α)) :
    List.intercalate sep (x :: xs) = x ++ xs.flatMap (sep ++ ·) := by
  induction xs generalizing x with
  | nil => simp [List.intercalate]
  | cons y ys ih => rw [intercalate_cons_cons, ih, List.flatMap_cons, List.append_assoc]

end Separators

@[simp] theorem split_nil : split [] = [[]] := rfl

theorem split_cons (c : Char) (t : Text) : split (c :: t) = consLine c (split t) := rfl

theorem consLine_ne_nil (c : Char) (ls : List Text) : consLine c ls ≠ [] := by
  cases ls with
  | nil => simp [consLine]
  | cons l ls =>
    simp only [consLine]
    split <;> simp

theorem split_ne_nil (t : Text) : split t ≠ [] := by
  cases t with
  | nil => simp
  | cons c r => exact consLine_ne_nil c (split r)

/-- Nothing is lost by cutting a text into lines. -/
theorem join_split (t : Text) : join (split t) = t := by
  induction t with
  | nil => rfl
  | cons c r ih =>
    rw [split_cons]
    cases hs : split r with
    | nil => exact absurd hs (split_ne_nil r)
    | cons l ls =>
      rw [hs] at ih
      by_cases hc : c = '\n'
      · subst hc
        simpa [consLine, join, List.intercalate] using ih
      · cases ls with
        | nil => simpa [consLine, hc, join, List.intercalate] using ih
        | cons m ms => simpa [consLine, hc, join, List.intercalate] using ih

/-- A text without a line feed is its own only line. -/
theorem split_of_notMem {t : Text} (h : '\n' ∉ t) : split t = [t] := by
  induction t with
  | nil => rfl
  | cons c r ih =>
    simp only [List.mem_cons, not_or] at h
    simp [split_cons, ih h.2, consLine, Ne.symm h.1]

/-- A line feed ends a line. -/
theorem split_append_line {l : Text} (h : '\n' ∉ l) (t : Text) :
    split (l ++ '\n' :: t) = l :: split t := by
  induction l with
  | nil =>
    cases hs : split t with
    | nil => exact absurd hs (split_ne_nil t)
    | cons m ms => simp [split_cons, hs, consLine]
  | cons c r ih =>
    simp only [List.mem_cons, not_or] at h
    simp [split_cons, ih h.2, consLine, Ne.symm h.1]

/-- Lines are what they were joined from. -/
theorem split_join {ls : List Text} (hne : ls ≠ []) (h : ∀ l ∈ ls, '\n' ∉ l) :
    split (join ls) = ls := by
  induction ls with
  | nil => exact absurd rfl hne
  | cons l ls ih =>
    cases ls with
    | nil => simpa [join] using split_of_notMem (h l (by simp))
    | cons m ms =>
      have hjoin : join (l :: m :: ms) = l ++ '\n' :: join (m :: ms) :=
        intercalate_cons_cons ['\n'] l m ms
      rw [hjoin, split_append_line (h l (by simp)), ih (by simp) fun l hl => h l (by simp [hl])]

end Text

end SolidScript
