import SolidScript.Proofs.Node.Equality
import SolidScript.Proofs.Script.Template
import SolidScript.Script.Summary

/-!
# Scripts of equal models

How many lines a script has is not a matter of how the numbers and the files of the model are
spelled: a tidied model has lines at the same depths, and the same ones of them are empty
(`Node.outlines_tidy`). So scripts of equal models have as many lines. They are the same texts if
there is only one spelling of each number and each file.

The main statement is `Node.eqv_agrees`.
-/

namespace SolidScript

/-! ## Outlines -/

namespace Script

variable {α : Type}

/-- What is left of the body of a line if only its being there counts. -/
def mark (body : List α) : List Unit := (body.take 1).map fun _ => ()

theorem mark_eq_nil_iff (body : List α) : mark body = [] ↔ body = [] := by simp [mark]

theorem mark_of_ne_nil {body : List α} (h : body ≠ []) : mark body = [()] := by
  obtain ⟨a, as, rfl⟩ := List.exists_cons_of_ne_nil h
  rfl

/-- Lines without their texts: where they stand, and whether there is anything in them. -/
def outlines (ls : List (Line α)) : List (Line Unit) := ls.map fun l => ⟨l.depth, mark l.body⟩

theorem isBlankLine_outlines_iff (ls : List (Line α)) :
    IsBlankLine (outlines ls) ↔ IsBlankLine ls := by
  constructor
  · rintro ⟨d, hd⟩
    obtain ⟨l, rfl, hl⟩ := List.map_eq_singleton_iff.mp hd
    have hbody : l.body = [] := (mark_eq_nil_iff l.body).mp (congrArg Line.body hl)
    exact ⟨l.depth, by rw [← hbody]⟩
  · rintro ⟨d, rfl⟩
    exact ⟨d, rfl⟩

theorem outlines_partLines (ls : List (Line α)) :
    outlines (partLines ls) = partLines (outlines ls) := by
  by_cases h : IsBlankLine ls
  · rw [partLines_of_isBlankLine h,
      partLines_of_isBlankLine ((isBlankLine_outlines_iff ls).mpr h)]
    rfl
  · rw [partLines_of_not_isBlankLine h,
      partLines_of_not_isBlankLine (mt (isBlankLine_outlines_iff ls).mp h), outlines, outlines,
      List.map_map, List.map_map]
    rfl

theorem outlines_listLines (parts : List (List (Line α))) :
    outlines (listLines parts) = listLines (parts.map outlines) := by
  cases parts with
  | nil => rfl
  | cons ls parts => exact List.map_flatten

theorem outlines_blockLines (first last : List α) (parts : List (List (Line α))) :
    outlines (blockLines first last parts)
      = blockLines (mark first) (mark last) (parts.map outlines) := by
  have hparts : outlines (parts.flatMap partLines) = (parts.map outlines).flatMap partLines := by
    rw [outlines, List.map_flatMap, List.flatMap_map]
    exact List.flatMap_congr fun ls _ => outlines_partLines ls
  rw [blockLines, blockLines, ← hparts]
  simp [outlines]

/-! ## Texts without empty lines -/

/-- There is no empty line in the text. -/
def IsFull (t : Text) : Prop := ∀ l ∈ Text.split t, l ≠ []

theorem isFull_of_notMem {t : Text} (h : '\n' ∉ t) (hne : t ≠ []) : IsFull t := by
  rw [IsFull, Text.split_of_notMem h]
  exact List.forall_mem_singleton.mpr hne

theorem outlines_textLines {t : Text} (h : IsFull t) :
    outlines (textLines t) = List.replicate (Text.split t).length ⟨0, [()]⟩ := by
  rw [outlines, textLines, List.map_map, ← List.map_const']
  exact List.map_congr_left fun l hl => congrArg (Line.mk 0) (mark_of_ne_nil (h l hl))

theorem outlines_textLines_of_notMem {t : Text} (h : '\n' ∉ t) (hne : t ≠ []) :
    outlines (textLines t) = [⟨0, [()]⟩] := by
  rw [outlines_textLines (isFull_of_notMem h hne), Text.split_of_notMem h]
  rfl

theorem notMem_cube (size : Vec3) (center : Bool) : '\n' ∉ cube size center :=
  List.not_mem_append (List.not_mem_append (List.not_mem_append (List.not_mem_append (by decide)
    (notMem_vector _)) (by decide)) (notMem_flag center)) (by decide)

/-- A body of a fixed shape has a single line, and an imported mesh has. -/
def singleLine : List (Line Unit) := [⟨0, [()]⟩]

theorem outlines_cube (size : Vec3) (center : Bool) :
    outlines (textLines (cube size center)) = singleLine :=
  outlines_textLines_of_notMem (notMem_cube size center)
    (List.append_ne_nil_of_right_ne_nil _ (by decide))

theorem outlines_sphere (s : Settings) (r : Binary64) :
    outlines (textLines (sphere s r)) = singleLine :=
  outlines_textLines_of_notMem (notMem_sphere s r)
    (List.append_ne_nil_of_right_ne_nil _ (by decide))

theorem outlines_cylinder (s : Settings) (h rTop rBottom : Binary64) (center : Bool) :
    outlines (textLines (cylinder s h rTop rBottom center)) = singleLine :=
  outlines_textLines_of_notMem (notMem_cylinder s h rTop rBottom center)
    (List.append_ne_nil_of_right_ne_nil _ (by decide))

theorem outlines_mesh (s : Settings) (file : Path) :
    outlines (textLines (mesh s file)) = singleLine :=
  outlines_textLines_of_notMem (notMem_mesh s file)
    (List.append_ne_nil_of_right_ne_nil _ (by decide))

/-! ## Polyhedra -/

/-- The lines of a named list. -/
def sectionLines (name : String) (body : Text) : List Text :=
  (Text.indentation 1 ++ name.toList ++ " = [".toList)
    :: ((if body.isEmpty then [] else [Text.indentation 2 ++ body])
      ++ [Text.indentation 1 ++ "],".toList])

theorem listSection_eq (name : String) (body : Text) :
    listSection name body = (sectionLines name body).flatMap fun l => l ++ ['\n'] := by
  rw [listSection, sectionLines]
  split <;> simp

theorem sectionLines_full {name : String} {body : Text} (hname : '\n' ∉ name.toList)
    (hbody : '\n' ∉ body) : ∀ l ∈ sectionLines name body, '\n' ∉ l ∧ l ≠ [] := by
  have hblank (d : Nat) : '\n' ∉ Text.indentation d := by simp [Text.indentation]
  have hfirst : '\n' ∉ Text.indentation 1 ++ name.toList ++ " = [".toList :=
    List.not_mem_append (List.not_mem_append (hblank 1) hname) (by decide)
  rw [sectionLines, List.forall_mem_cons, List.forall_mem_append, List.forall_mem_singleton]
  refine ⟨⟨hfirst, List.append_ne_nil_of_right_ne_nil _ (by decide)⟩, ?_, by decide, by decide⟩
  split
  next => exact List.forall_mem_nil _
  next =>
    exact List.forall_mem_singleton.mpr ⟨List.not_mem_append (hblank 2) hbody,
      List.append_ne_nil_of_left_ne_nil (by decide) _⟩

theorem length_sectionLines (name : String) (body : Text) :
    (sectionLines name body).length = if body.isEmpty then 2 else 3 := by
  rw [sectionLines]
  split <;> rfl

/-- The points of a polyhedron, on one line. -/
def pointList (r : IndexedFaces) : Text :=
  Text.commas (r.points.map fun p => vector [p.x, p.y, p.z])

/-- The sides of a polyhedron, on one line. -/
def sideList (r : IndexedFaces) : Text :=
  Text.commas (r.faces.map fun face => '[' :: Text.commas (face.map digits) ++ [']'])

theorem notMem_pointList (r : IndexedFaces) : '\n' ∉ pointList r :=
  notMem_commas (List.forall_mem_map.mpr fun _ _ => notMem_vector _)

theorem notMem_sideList (r : IndexedFaces) : '\n' ∉ sideList r := by
  refine notMem_commas (List.forall_mem_map.mpr fun face _ => ?_)
  have hdigits : '\n' ∉ Text.commas (face.map digits) :=
    notMem_commas (List.forall_mem_map.mpr fun n _ => notMem_digits n)
  simp [hdigits]

/-- The lines of a polyhedron before its last one. -/
def polyhedronLines (r : IndexedFaces) : List Text :=
  "polyhedron(".toList
    :: (sectionLines "points" (pointList r) ++ sectionLines "faces" (sideList r))

theorem polyhedronLines_full (r : IndexedFaces) :
    ∀ l ∈ polyhedronLines r, '\n' ∉ l ∧ l ≠ [] := by
  rw [polyhedronLines, List.forall_mem_cons, List.forall_mem_append]
  exact ⟨by decide, sectionLines_full (by decide) (notMem_pointList r),
    sectionLines_full (by decide) (notMem_sideList r)⟩

theorem polyhedron_eq (faces : List Face) : polyhedron faces
    = (polyhedronLines (indexFaces faces)).flatMap (fun l => l ++ ['\n'])
      ++ "convexity = 10);".toList := by
  have htext : polyhedron faces = "polyhedron(\n".toList
      ++ listSection "points" (pointList (indexFaces faces))
      ++ listSection "faces" (sideList (indexFaces faces)) ++ "convexity = 10);".toList := rfl
  rw [htext, polyhedronLines, List.flatMap_cons, List.flatMap_append, ← listSection_eq,
    ← listSection_eq]
  simp only [List.append_assoc]
  rfl

theorem split_polyhedron (faces : List Face) : Text.split (polyhedron faces)
    = polyhedronLines (indexFaces faces) ++ ["convexity = 10);".toList] := by
  have hlines : ∀ l ∈ polyhedronLines (indexFaces faces), '\n' ∉ l :=
    fun l hl => (polyhedronLines_full _ l hl).1
  have hlast : Text.split "convexity = 10);".toList = ["convexity = 10);".toList] := by decide
  rw [polyhedron_eq, Text.split_flatMap_line hlines, hlast]

theorem isFull_polyhedron (faces : List Face) : IsFull (polyhedron faces) := by
  rw [IsFull, split_polyhedron, List.forall_mem_append]
  exact ⟨fun l hl => (polyhedronLines_full _ l hl).2, by decide⟩

theorem isEmpty_commas_map {β : Type} {f : β → Text} (h : ∀ b, f b ≠ []) (bs : List β) :
    (Text.commas (bs.map f)).isEmpty = bs.isEmpty := by
  cases bs with
  | nil => rfl
  | cons b bs =>
    rw [List.map_cons, Text.commas, Text.intercalate_cons, List.isEmpty_cons]
    simp [h b]

/-- Only the numbers of points and sides count for the number of lines. -/
theorem length_split_polyhedron (faces : List Face) : (Text.split (polyhedron faces)).length
    = 2 + (if (indexFaces faces).points.isEmpty then 2 else 3)
      + if (indexFaces faces).faces.isEmpty then 2 else 3 := by
  have hpoints : (pointList (indexFaces faces)).isEmpty = (indexFaces faces).points.isEmpty :=
    isEmpty_commas_map (by simp [vector]) _
  have hsides : (sideList (indexFaces faces)).isEmpty = (indexFaces faces).faces.isEmpty :=
    isEmpty_commas_map (by simp) _
  rw [split_polyhedron, polyhedronLines, List.length_append, List.length_cons, List.length_append,
    length_sectionLines, length_sectionLines, hpoints, hsides, List.length_singleton]
  omega

theorem outlines_polyhedron_tidy (faces : List Face) :
    outlines (textLines (polyhedron (faces.map (Face.map .unsigned))))
      = outlines (textLines (polyhedron faces)) := by
  rw [outlines_textLines (isFull_polyhedron _), outlines_textLines (isFull_polyhedron _),
    length_split_polyhedron, length_split_polyhedron, indexFaces_map Binary64.key_unsigned,
    List.isEmpty_map]

end Script

namespace Node

variable (s : Settings)

open Script in
/-- The lines of a tidied model stand where those of the model do. -/
theorem outlines_tidy (m : Node) : outlines (m.tidy.lines s) = outlines (m.lines s) := by
  induction m using induction with
  | step m ih =>
    have hall (cs : List Node) (h : ∀ c ∈ cs, c ∈ m.children) :
        (linesAll s (mapAll .unsigned .tidy cs)).map outlines = (linesAll s cs).map outlines := by
      rw [linesAll_eq_map, linesAll_eq_map, mapAll_eq_map, List.map_map, List.map_map, List.map_map]
      exact List.map_congr_left fun c hc => ih c (h c hc)
    cases m with
    | literal t => rfl
    | list cs =>
      rw [tidy, map, lines, lines, outlines_listLines, outlines_listLines, hall cs fun _ => id]
    | union cs =>
      rw [tidy, map, lines, lines, outlines_blockLines, outlines_blockLines, hall cs fun _ => id]
    | intersection cs =>
      rw [tidy, map, lines, lines, outlines_blockLines, outlines_blockLines, hall cs fun _ => id]
    | difference parent cs =>
      have hparent := ih parent List.mem_cons_self
      rw [tidy] at hparent
      rw [tidy, map, lines, lines, outlines_blockLines, outlines_blockLines, List.map_cons,
        List.map_cons, hparent, hall cs fun _ => List.mem_cons_of_mem parent]
    | transform op content =>
      have hcontent := ih content List.mem_cons_self
      have hhead (op : TransformOp) : mark (transformHead op ++ " \x7b".toList) = [()] :=
        mark_of_ne_nil (List.append_ne_nil_of_right_ne_nil _ (by decide))
      rw [tidy] at hcontent
      rw [tidy, map, lines, lines, outlines_blockLines, outlines_blockLines, List.map_singleton,
        List.map_singleton, hcontent, hhead, hhead]
    | cube size center => exact (outlines_cube _ center).trans (outlines_cube size center).symm
    | sphere r => exact (outlines_sphere s _).trans (outlines_sphere s r).symm
    | cylinder h rTop rBottom center =>
      exact (outlines_cylinder s _ _ _ center).trans
        (outlines_cylinder s h rTop rBottom center).symm
    | polyhedron faces => exact outlines_polyhedron_tidy faces
    | mesh file => exact (outlines_mesh s _).trans (outlines_mesh s file).symm

open Script in
/-- The outlines say how many lines there are, and which of them are empty. -/
theorem map_isEmpty_split_render (m : Node) :
    (Text.split (m.render s)).map List.isEmpty
      = (outlines (m.lines s)).map fun l => l.body.isEmpty := by
  have hsplit : Text.split (m.render s) = (m.lines s).map Line.toText := prints_render s m
  rw [hsplit, outlines, List.map_map, List.map_map]
  refine List.map_congr_left fun l _ => ?_
  rw [Function.comp_apply, Function.comp_apply, Bool.eq_iff_iff, List.isEmpty_iff,
    List.isEmpty_iff, Line.toText, Text.indentLine_eq_nil_iff, mark_eq_nil_iff]

/-- Of the lines of scripts of equal models the same are empty. -/
theorem map_isEmpty_split_of_eqv {a b : Node} (h : a.eqv b = true) :
    (Text.split (a.render s)).map List.isEmpty = (Text.split (b.render s)).map List.isEmpty := by
  rw [map_isEmpty_split_render, map_isEmpty_split_render, ← outlines_tidy s a,
    ((eqv_iff a b).mp h).1, outlines_tidy]

/-- What equal models share. -/
structure Agree (a b : Node) : Prop where
  count : a.count = b.count
  /-- The scripts are cut into as many lines. -/
  lines (s : Settings) : (Text.split (a.render s)).length = (Text.split (b.render s)).length
  lineCount (s : Settings) : (a.render s).lineCount = (b.render s).lineCount
  /-- The corners of their polyhedra are referred to alike. -/
  references : a.references = b.references
  /-- With a single spelling of each number and each file the scripts are the same. -/
  render : a.IsTidy → b.IsTidy → ∀ s : Settings, a.render s = b.render s

theorem agree_of_eqv {a b : Node} (h : a.eqv b = true) : Agree a b where
  count := by rw [← a.count_tidy, ((eqv_iff a b).mp h).1, b.count_tidy]
  lines s := by simpa using congrArg List.length (map_isEmpty_split_of_eqv s h)
  lineCount s := by
    have hempty := map_isEmpty_split_of_eqv s h
    have hlength : (Text.split (a.render s)).length = (Text.split (b.render s)).length := by
      simpa using congrArg List.length hempty
    rw [Text.lineCount_eq, Text.lineCount_eq, hempty, hlength]
  references := by rw [← a.references_tidy, ((eqv_iff a b).mp h).1, b.references_tidy]
  render ha hb s := by rw [ha.eq_of_eqv hb h]

/-- **Equal models make scripts alike**, the same ones if each number and each file has a single
spelling. Equality goes both ways and from one model to the next, and a model is equal to itself
exactly if there is no NaN in it. -/
theorem eqv_agrees :
    (∀ a b : Node, a.eqv b = true → Agree a b)
      ∧ (∀ a b : Node, a.eqv b = true → b.eqv a = true)
      ∧ (∀ a b c : Node, a.eqv b = true → b.eqv c = true → a.eqv c = true)
      ∧ ∀ a : Node, a.eqv a = true ↔ ∀ x ∈ a.numbers, x.isNaN = false :=
  ⟨fun _ _ => agree_of_eqv, fun _ _ => eqv_symm, fun _ _ _ => eqv_trans, eqv_self_iff⟩

/-- Corners with zeros of either sign, and a file with an idle dot in its path. The models are
equal, and not because they are tidy: zeros of two signs are written in two ways. -/
theorem eqv_agrees_of_zeros :
    let minus : Binary64 := ⟨0x8000000000000000⟩
    let model (x : Binary64) (file : String) : Node := .union [
      .polyhedron [⟨[⟨.zero, x, .zero⟩, ⟨x, .zero, .zero⟩]⟩], .mesh (.ofString file)]
    let a := model .zero "a/b.stl"
    let b := model minus "a/.//b.stl"
    Agree a b ∧ b.eqv a = true ∧ a.eqv a = true ∧ ¬b.IsTidy
      ∧ Agree (.sphere .zero) (.sphere minus)
      ∧ (sphere .zero).render {} ≠ (sphere minus).render {} := by
  intro minus model a b
  obtain ⟨hagree, hsymm, htrans, -⟩ := eqv_agrees
  have heqv : a.eqv b = true := by decide +kernel
  have hsign : ¬b.IsTidy := fun h => h.numbers minus (by decide +kernel) (by decide +kernel)
  exact ⟨hagree a b heqv, hsymm a b heqv, htrans a b a heqv (hsymm a b heqv), hsign,
    hagree _ _ (by decide +kernel), by decide +kernel⟩

end Node

end SolidScript
