import Mathlib.Data.List.Forall2
import SolidScript.Proofs.Node
import SolidScript.Proofs.Number.Digits
import SolidScript.Proofs.Text.Lines
import SolidScript.Script

/-!
# The lines of a script

A printer that goes through a model once and knows how deep it is: `Node.lines` lists the lines of a
script, each with the number of blocks around it. `Node.render` cuts and moves the text of every
part again in each block around it; what comes out is the same (`render_eq_join_lines`), because the
lines of a script are the lines that the printer lists (`prints_render`).
-/

namespace SolidScript

/-- A line of a script, and the number of blocks around it. -/
structure Line (α : Type) where
  depth : Nat
  body : List α

namespace Line

variable {α : Type}

/-- The line inside `d` more blocks. -/
def deeper (d : Nat) (l : Line α) : Line α := ⟨d + l.depth, l.body⟩

/-- The line as a script shows it. -/
def toText (l : Line Char) : Text := Text.indentLine l.depth l.body

theorem toText_deeper (d : Nat) (l : Line Char) :
    (l.deeper d).toText = Text.indentLine d l.toText := by
  rw [toText, toText, Text.indentLine_indentLine]
  rfl

theorem deeper_zero (l : Line α) : l.deeper 0 = l := by
  rw [deeper, Nat.zero_add]

theorem deeper_deeper (d e : Nat) (l : Line α) : (l.deeper e).deeper d = l.deeper (d + e) := by
  rw [deeper, deeper, deeper, Nat.add_assoc]

end Line

namespace Script

variable {α : Type}

/-- The lines are exactly one empty line. -/
def IsBlankLine (ls : List (Line α)) : Prop := ∃ d, ls = [⟨d, []⟩]

/-- The lines of a part inside a block: one step to the right, and none for a part that is one empty
line. -/
def partLines : List (Line α) → List (Line α)
  | [⟨_, []⟩] => []
  | ls => ls.map (Line.deeper 1)

/-- The lines of a block: its first line, the lines of its parts, and its last line. -/
def blockLines (first last : List α) (parts : List (List (Line α))) : List (Line α) :=
  ⟨0, first⟩ :: (parts.flatMap partLines ++ [⟨0, last⟩])

/-- Lines of parts that stand side by side. Without any part there is one empty line. -/
def listLines : List (List (Line α)) → List (Line α)
  | [] => [⟨0, []⟩]
  | parts => parts.flatten

/-- The lines of a text that stands in no block. -/
def textLines (t : Text) : List (Line Char) := (Text.split t).map (⟨0, ·⟩)

theorem partLines_of_isBlankLine {ls : List (Line α)} (h : IsBlankLine ls) : partLines ls = [] := by
  obtain ⟨d, rfl⟩ := h
  rfl

theorem partLines_of_not_isBlankLine {ls : List (Line α)} (h : ¬IsBlankLine ls) :
    partLines ls = ls.map (Line.deeper 1) := by
  unfold partLines
  split
  next d => exact absurd ⟨d, rfl⟩ h
  next => rfl

theorem listLines_of_ne_nil {parts : List (List (Line α))} (h : parts ≠ []) :
    listLines parts = parts.flatten := by
  cases parts with
  | nil => exact absurd rfl h
  | cons p ps => rfl

end Script

namespace Node

open Script

mutual

/-- The lines of the script of a model, each with the number of blocks around it. -/
def lines (s : Settings) : Node → List (Line Char)
  | .literal text => textLines text
  | .list cs => listLines (linesAll s cs)
  | .cube size center => textLines (Script.cube size center)
  | .sphere r => textLines (Script.sphere s r)
  | .cylinder h rTop rBottom center => textLines (Script.cylinder s h rTop rBottom center)
  | .polyhedron faces => textLines (Script.polyhedron faces)
  | .union cs => blockLines "union() \x7b".toList "\x7d;".toList (linesAll s cs)
  | .difference parent cs =>
    blockLines "difference() \x7b".toList "\x7d;".toList (parent.lines s :: linesAll s cs)
  | .intersection cs => blockLines "intersection() \x7b".toList "\x7d;".toList (linesAll s cs)
  | .transform op content =>
    blockLines (transformHead op ++ " \x7b".toList) "\x7d;".toList [content.lines s]
  | .mesh file => textLines (Script.mesh s file)

/-- The lines of the scripts of several models. -/
def linesAll (s : Settings) : List Node → List (List (Line Char))
  | [] => []
  | c :: cs => c.lines s :: linesAll s cs

end

end Node

namespace Script

/-! ## What was printed is cut into the lines -/

/-- The lines are those of the text. -/
def Prints (t : Text) (ls : List (Line Char)) : Prop := Text.split t = ls.map Line.toText

theorem prints_textLines (t : Text) : Prints t (textLines t) := by
  rw [Prints, textLines, List.map_map]
  have hshow : Line.toText ∘ (⟨0, ·⟩ : Text → Line Char) = id := by
    funext l
    exact Text.indentLine_zero l
  rw [hshow, List.map_id]

/-- A text is empty if its lines are one empty line. -/
theorem Prints.isBlankLine_iff {t : Text} {ls : List (Line Char)} (h : Prints t ls) :
    IsBlankLine ls ↔ t = [] := by
  rw [← Text.split_eq_blank_iff, h]
  constructor
  · rintro ⟨d, rfl⟩
    rfl
  · intro hblank
    obtain ⟨l, rfl, hl⟩ := List.map_eq_singleton_iff.mp hblank
    have hbody : l.body = [] := (Text.indentLine_eq_nil_iff l.depth l.body).mp hl
    exact ⟨l.depth, by rw [← hbody]⟩

theorem Prints.listLines {ts : List Text} {parts : List (List (Line Char))}
    (h : List.Forall₂ Prints ts parts) : Prints (Text.join ts) (listLines parts) := by
  cases h with
  | nil => rfl
  | @cons t ls ts parts ht hts =>
    have hsplit (ts : List Text) (parts : List (List (Line Char)))
        (h : List.Forall₂ Prints ts parts) :
        ts.flatMap Text.split = parts.flatten.map Line.toText := by
      induction h with
      | nil => rfl
      | cons ht _ ih => rw [List.flatMap_cons, ht, ih, List.flatten_cons, List.map_append]
    rw [Prints, Text.split_join_eq_flatMap (List.cons_ne_nil t ts),
      listLines_of_ne_nil (List.cons_ne_nil ls parts)]
    exact hsplit _ _ (.cons ht hts)

/-- The lines of a part of a block are moved by one step, and a part without text has none. -/
theorem Prints.split_blockPart {t : Text} {ls : List (Line Char)} (h : Prints t ls) (u : Text) :
    Text.split (blockPart t ++ u) = (partLines ls).map Line.toText ++ Text.split u := by
  rw [blockPart]
  split
  next hempty =>
    rw [partLines_of_isBlankLine (h.isBlankLine_iff.mpr (List.isEmpty_iff.mp hempty))]
    rfl
  next hne =>
    have hlines : ∀ l ∈ (Text.split t).map (Text.indentLine 1), '\n' ∉ l := by
      intro l hl
      obtain ⟨k, hk, rfl⟩ := List.mem_map.mp hl
      exact Text.notMem_indentLine 1 (Text.notMem_of_mem_split hk)
    have hmoved : (Text.split t).map (Text.indentLine 1) = (partLines ls).map Line.toText := by
      rw [partLines_of_not_isBlankLine (fun hblank => hne
        (List.isEmpty_iff.mpr (h.isBlankLine_iff.mp hblank))), h, List.map_map, List.map_map]
      exact List.map_congr_left fun l _ => (l.toText_deeper 1).symm
    have hcut := Text.split_flatMap_line hlines u
    rwa [List.flatMap_map, hmoved] at hcut

theorem Prints.blockLines {head : Text} (hhead : '\n' ∉ head) {ts : List Text}
    {parts : List (List (Line Char))} (h : List.Forall₂ Prints ts parts) :
    Prints (block head ts) (blockLines (head ++ " \x7b".toList) "\x7d;".toList parts) := by
  have hparts : Text.split (ts.flatMap blockPart ++ "\x7d;".toList)
      = (parts.flatMap partLines).map Line.toText ++ ["\x7d;".toList] := by
    induction h with
    | nil => rfl
    | cons ht _ ih =>
      rw [List.flatMap_cons, List.append_assoc, ht.split_blockPart, ih, List.flatMap_cons,
        List.map_append, List.append_assoc]
  have hfirst : '\n' ∉ head ++ " \x7b".toList := by simp [hhead]
  have htext : block head ts = (head ++ " \x7b".toList)
      ++ '\n' :: (ts.flatMap blockPart ++ "\x7d;".toList) := by
    simp [block]
  have hshow (l : Text) : Line.toText ⟨0, l⟩ = l := Text.indentLine_zero l
  rw [Prints, htext, Text.split_append_line hfirst, hparts, Script.blockLines, List.map_cons,
    List.map_append, List.map_singleton, hshow, hshow]

/-! ## Heads -/

theorem notMem_toScript (x : Binary64) : '\n' ∉ x.toScript := by
  intro h
  have hchar := List.all_eq_true.mp (Style.all_write .script x) _ h
  cases hchar

theorem notMem_commas {ts : List Text} (h : ∀ t ∈ ts, '\n' ∉ t) : '\n' ∉ Text.commas ts := by
  cases ts with
  | nil => exact List.not_mem_nil
  | cons t ts =>
    rw [List.forall_mem_cons] at h
    rw [Text.commas, Text.intercalate_cons]
    simp only [List.mem_append, List.mem_flatMap, not_or]
    refine ⟨h.1, ?_⟩
    rintro ⟨u, hu, hmem | hmem⟩
    · simp at hmem
    · exact h.2 u hu hmem

theorem notMem_vector (xs : List Binary64) : '\n' ∉ vector xs := by
  have hcommas : '\n' ∉ Text.commas (xs.map Binary64.toScript) := by
    refine notMem_commas fun t ht => ?_
    obtain ⟨x, -, rfl⟩ := List.mem_map.mp ht
    exact notMem_toScript x
  simp [vector, hcommas]

theorem notMem_transformHead (op : TransformOp) : '\n' ∉ transformHead op := by
  have hkeyword : op.keyword.contains '\n' = false := by cases op <;> rfl
  rw [List.contains_eq_mem, decide_eq_false_iff_not] at hkeyword
  simp [transformHead, hkeyword, notMem_vector]

/-! ## Models -/

variable (s : Settings)

mutual

/-- The script of a model is cut into the lines of the model. -/
theorem prints_render : ∀ m : Node, Prints (m.render s) (m.lines s)
  | .literal text => prints_textLines text
  | .list cs => Prints.listLines (forall₂_prints cs)
  | .cube size center => prints_textLines (cube size center)
  | .sphere r => prints_textLines (sphere s r)
  | .cylinder h rTop rBottom center => prints_textLines (cylinder s h rTop rBottom center)
  | .polyhedron faces => prints_textLines (polyhedron faces)
  | .union cs => Prints.blockLines (by decide) (forall₂_prints cs)
  | .difference parent cs =>
    Prints.blockLines (by decide) (.cons (prints_render parent) (forall₂_prints cs))
  | .intersection cs => Prints.blockLines (by decide) (forall₂_prints cs)
  | .transform op content =>
    Prints.blockLines (notMem_transformHead op) (.cons (prints_render content) .nil)
  | .mesh file => prints_textLines (mesh s file)

theorem forall₂_prints :
    ∀ cs : List Node, List.Forall₂ Prints (Node.renderAll s cs) (Node.linesAll s cs)
  | [] => .nil
  | c :: cs => .cons (prints_render c) (forall₂_prints cs)

end

end Script

namespace Node

/-- **The script of a model is what a printer writes that goes through the model once**: its lines
with a line feed between each two, those that are not empty behind four blanks for each block around
them. -/
theorem render_eq_join_lines (s : Settings) (m : Node) :
    m.render s = Text.join ((m.lines s).map fun l =>
      if l.body = [] then [] else List.replicate (4 * l.depth) ' ' ++ l.body) := by
  have hline (l : Line Char) : l.toText
      = if l.body = [] then [] else List.replicate (4 * l.depth) ' ' ++ l.body := by
    rw [Line.toText, Text.indentLine, Text.indentation]
    simp only [List.isEmpty_iff]
  rw [← Text.join_split (m.render s), Script.prints_render s m, funext hline]

end Node

end SolidScript
