import SolidScript.Json
import SolidScript.Json.Lexeme

/-!
# Layouts

What a layout puts between the parts of a text is blank, apart from the colon behind a key. That is
all that matters about a layout to whoever reads the text.
-/

namespace SolidScript.Json

/-- The layout adds blanks only. -/
structure Layout.IsBlank (layout : Layout) : Prop where
  gap : ∀ depth, (layout.gap depth).all Json.isBlank = true
  colon : ∃ bs, layout.colon = ':' :: bs ∧ bs.all Json.isBlank = true

theorem isBlank_compact : compact.IsBlank where
  gap _ := rfl
  colon := ⟨[], rfl, rfl⟩

theorem isBlank_pretty : pretty.IsBlank where
  gap depth := by
    rw [pretty, List.all_cons, List.all_eq_true.mpr]
    · rfl
    · intro c hc
      rw [(List.mem_replicate.mp hc).2]
      rfl
  colon := ⟨[' '], rfl, rfl⟩

section Texts

variable (layout : Layout) (depth : Nat)

theorem printAt_number (x : Binary64) : (number x).printAt layout depth = printNumber x := rfl

theorem printAt_string (t : Text) : (string t).printAt layout depth = quote t := rfl

theorem printAt_array (js : List Json) : (array js).printAt layout depth
    = bracketed layout depth '[' ']' (printItems layout (depth + 1) js) := rfl

theorem printAt_object (fs : List (Text × Json)) : (object fs).printAt layout depth
    = bracketed layout depth '\x7b' '\x7d' (printFields layout (depth + 1) fs) := rfl

theorem printItems_nil : printItems layout depth [] = [] := rfl

theorem printItems_cons (j : Json) (js : List Json) : printItems layout depth (j :: js)
    = j.printAt layout depth :: printItems layout depth js := rfl

theorem printFields_nil : printFields layout depth [] = [] := rfl

theorem printFields_cons (key : Text) (j : Json) (fs : List (Text × Json)) :
    printFields layout depth ((key, j) :: fs)
      = (quote key ++ layout.colon ++ j.printAt layout depth) :: printFields layout depth fs := rfl

end Texts

/-- Items with what stands in front of each of them: a gap, and a comma in front of all but the
first. -/
def spread (layout : Layout) (depth : Nat) : Bool → List Text → Text
  | _, [] => []
  | first, x :: xs =>
    (if first then [] else [',']) ++ layout.gap depth ++ (x ++ spread layout depth false xs)

theorem spread_false (layout : Layout) (depth : Nat) (xs : List Text) :
    spread layout depth false xs = xs.flatMap (',' :: layout.gap depth ++ ·) := by
  induction xs with
  | nil => rfl
  | cons x xs ih =>
    rw [spread, ih, List.flatMap_cons, if_neg Bool.false_ne_true, List.singleton_append,
      ← List.append_assoc]

/-- Behind the items stands what is blank, and the closing bracket. -/
theorem exists_bracketed_eq {layout : Layout} (hlayout : layout.IsBlank) (depth : Nat)
    (left right : Char) (xs : List Text) :
    ∃ bs, bs.all isBlank = true ∧ bracketed layout depth left right xs
      = left :: (spread layout (depth + 1) true xs ++ (bs ++ [right])) := by
  cases xs with
  | nil => exact ⟨[], rfl, rfl⟩
  | cons x xs =>
    refine ⟨layout.gap depth, hlayout.gap depth, ?_⟩
    rw [bracketed, Text.intercalate_cons, spread, spread_false]
    · simp
    · simp

end SolidScript.Json
