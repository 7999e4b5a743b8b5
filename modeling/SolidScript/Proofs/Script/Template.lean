import SolidScript.Proofs.Script.Context
import SolidScript.Proofs.Script.Quoted

/-!
# Templates

What a script takes from the settings stands in holes: the number of fragments of each round body,
and the hint behind each imported mesh. `Node.template` lists the lines of a script with the holes
left open. It does not know the settings, and still it leaves out what the script leaves out,
because no line consists of holes alone (`fills_template`). So every script of a model is its
template with the holes filled (`render_eq_fill`).
-/

namespace SolidScript

open Script

/-- A stretch of a script. -/
inductive Segment where
  | fixed (text : Text)
  /-- A hole for the number of fragments. -/
  | resolution
  /-- A hole for the hint behind a mesh. -/
  | convexity
deriving DecidableEq

namespace Segment

/-- What stands in place of the segment under the given settings. -/
def fill (s : Settings) : Segment → Text
  | .fixed text => text
  | .resolution => digits s.resolution.toNat
  | .convexity =>
    match s.meshConvexity with
    | none => []
    | some n => ", convexity = ".toList ++ digits n.toNat

/-- A text without holes. -/
def ofText (t : Text) : List Segment := if t = [] then [] else [.fixed t]

theorem flatMap_fill_ofText (s : Settings) (t : Text) : (ofText t).flatMap (fill s) = t := by
  rw [ofText]
  split
  next h => rw [h, List.flatMap_nil]
  next => rw [List.flatMap_singleton, fill]

end Segment

namespace Line

/-- The line with the holes filled. -/
def fill (s : Settings) (l : Line Segment) : Line Char := ⟨l.depth, l.body.flatMap (Segment.fill s)⟩

/-- The line as a script shows it, the holes left open. -/
def row (l : Line Segment) : List Segment :=
  if l.body = [] then [] else .fixed (Text.indentation l.depth) :: l.body

end Line

namespace Script

/-- A single line with a hole in it. -/
def holeLines (first : Text) (hole : Segment) (last : Text) : List (Line Segment) :=
  [⟨0, [.fixed first, hole, .fixed last]⟩]

/-- The lines of a text without holes. -/
def fixedLines (t : Text) : List (Line Segment) := (Text.split t).map (⟨0, Segment.ofText ·⟩)

end Script

namespace Node

mutual

/-- The lines of the script of a model, the holes left open. -/
def template : Node → List (Line Segment)
  | .literal text => fixedLines text
  | .list cs => listLines (templateAll cs)
  | .cube size center => fixedLines (Script.cube size center)
  | .sphere r =>
    holeLines ("sphere(".toList ++ r.toScript ++ ", $fn=".toList) .resolution ");".toList
  | .cylinder h rTop rBottom center =>
    holeLines "cylinder($fn = ".toList .resolution
      (", ".toList ++ Text.commas [h.toScript, rBottom.toScript, rTop.toScript, flag center]
        ++ ");".toList)
  | .polyhedron faces => fixedLines (Script.polyhedron faces)
  | .union cs => blockLines [.fixed "union() \x7b".toList] [.fixed "\x7d;".toList] (templateAll cs)
  | .difference parent cs =>
    blockLines [.fixed "difference() \x7b".toList] [.fixed "\x7d;".toList]
      (parent.template :: templateAll cs)
  | .intersection cs =>
    blockLines [.fixed "intersection() \x7b".toList] [.fixed "\x7d;".toList] (templateAll cs)
  | .transform op content =>
    blockLines [.fixed (transformHead op ++ " \x7b".toList)] [.fixed "\x7d;".toList]
      [content.template]
  | .mesh file =>
    holeLines ("import(\"".toList ++ Quoted.encode file.display ++ ['"']) .convexity ");".toList

/-- The templates of several models. -/
def templateAll : List Node → List (List (Line Segment))
  | [] => []
  | c :: cs => c.template :: templateAll cs

end

theorem templateAll_eq_map (cs : List Node) : templateAll cs = cs.map template := by
  induction cs with
  | nil => rfl
  | cons c cs ih => rw [templateAll, ih, List.map_cons]

/-- The lines of a script with the holes left open, moved to their places. -/
def rows (m : Node) : List (List Segment) := m.template.map Line.row

/-- The segments of a script, from its start to its end. -/
def segments (m : Node) : List Segment := List.intercalate [.fixed ['\n']] m.rows

/-- A body that is written with the number of fragments. -/
def isRound : Node → Bool
  | .sphere _ | .cylinder _ _ _ _ => true
  | _ => false

def isMesh : Node → Bool
  | .mesh _ => true
  | _ => false

end Node

/-! ## Filling -/

/-- The lines are those of the template with the holes filled, and no line is empty only because its
holes are. -/
structure Fills (s : Settings) (ts : List (Line Segment)) (ls : List (Line Char)) : Prop where
  lines : ls = ts.map (Line.fill s)
  inked : ∀ l ∈ ts, l.body.flatMap (Segment.fill s) = [] → l.body = []

section Fills

variable {s : Settings}

theorem fills_fixedLines (t : Text) : Fills s (fixedLines t) (textLines t) where
  lines := by
    rw [textLines, fixedLines, List.map_map]
    refine List.map_congr_left fun l _ => ?_
    rw [Function.comp_apply, Line.fill, Segment.flatMap_fill_ofText]
  inked l hl h := by
    obtain ⟨k, -, rfl⟩ := List.mem_map.mp hl
    rw [Segment.flatMap_fill_ofText] at h
    rw [h, Segment.ofText, if_pos rfl]

theorem fills_holeLines {first last t : Text} {hole : Segment} (hfirst : first ≠ [])
    (ht : '\n' ∉ t) (htext : t = first ++ hole.fill s ++ last) :
    Fills s (holeLines first hole last) (textLines t) where
  lines := by
    rw [textLines, Text.split_of_notMem ht, htext, List.append_assoc]
    simp [holeLines, Line.fill, Segment.fill]
  inked l hl h := by
    rw [List.mem_singleton.mp hl, List.flatMap_cons, List.append_eq_nil_iff] at h
    exact absurd h.1 hfirst

theorem Fills.isBlankLine_iff {ts : List (Line Segment)} {ls : List (Line Char)}
    (h : Fills s ts ls) : IsBlankLine ls ↔ IsBlankLine ts := by
  constructor
  · rintro ⟨d, hd⟩
    rw [h.lines, List.map_eq_singleton_iff] at hd
    obtain ⟨l, rfl, hl⟩ := hd
    have hbody := h.inked l List.mem_cons_self (congrArg Line.body hl)
    exact ⟨l.depth, by rw [← hbody]⟩
  · rintro ⟨d, rfl⟩
    exact ⟨d, h.lines⟩

theorem Fills.partLines {ts : List (Line Segment)} {ls : List (Line Char)} (h : Fills s ts ls) :
    Fills s (partLines ts) (partLines ls) := by
  by_cases hblank : IsBlankLine ts
  · rw [partLines_of_isBlankLine hblank, partLines_of_isBlankLine (h.isBlankLine_iff.mpr hblank)]
    exact ⟨rfl, List.forall_mem_nil _⟩
  · rw [partLines_of_not_isBlankLine hblank,
      partLines_of_not_isBlankLine (mt h.isBlankLine_iff.mp hblank)]
    constructor
    · rw [h.lines, List.map_map, List.map_map]
      rfl
    · intro l hl
      obtain ⟨k, hk, rfl⟩ := List.mem_map.mp hl
      exact h.inked k hk

theorem Fills.append {ts us : List (Line Segment)} {ls ms : List (Line Char)} (h : Fills s ts ls)
    (h' : Fills s us ms) : Fills s (ts ++ us) (ls ++ ms) where
  lines := by rw [h.lines, h'.lines, List.map_append]
  inked := List.forall_mem_append.mpr ⟨h.inked, h'.inked⟩

theorem Fills.flatten {parts : List (List (Line Segment))} {lines : List (List (Line Char))}
    (h : List.Forall₂ (Fills s) parts lines) : Fills s parts.flatten lines.flatten := by
  induction h with
  | nil => exact ⟨rfl, List.forall_mem_nil _⟩
  | cons ht _ ih => exact ht.append ih

theorem fills_fixed {first : Text} (hfirst : first ≠ []) :
    Fills s [⟨0, [.fixed first]⟩] [⟨0, first⟩] where
  lines := by
    rw [List.map_singleton, Line.fill, List.flatMap_singleton, Segment.fill]
  inked l hl h := by
    rw [List.mem_singleton.mp hl, List.flatMap_singleton] at h
    exact absurd h hfirst

theorem Fills.listLines {parts : List (List (Line Segment))} {lines : List (List (Line Char))}
    (h : List.Forall₂ (Fills s) parts lines) : Fills s (listLines parts) (listLines lines) := by
  cases h with
  | nil =>
    refine ⟨rfl, fun l hl _ => ?_⟩
    rw [List.mem_singleton.mp hl]
  | cons ht hts => exact Fills.flatten (.cons ht hts)

theorem Fills.blockLines {first last : Text} (hfirst : first ≠ []) (hlast : last ≠ [])
    {parts : List (List (Line Segment))} {lines : List (List (Line Char))}
    (h : List.Forall₂ (Fills s) parts lines) :
    Fills s (blockLines [.fixed first] [.fixed last] parts) (blockLines first last lines) := by
  have hparts : Fills s (parts.flatMap Script.partLines) (lines.flatMap Script.partLines) := by
    rw [List.flatMap_def, List.flatMap_def]
    refine Fills.flatten ?_
    rw [List.forall₂_map_left_iff, List.forall₂_map_right_iff]
    exact h.imp fun _ _ => Fills.partLines
  exact (fills_fixed hfirst).append (hparts.append (fills_fixed hlast))

end Fills

namespace Script

variable (s : Settings)

theorem notMem_digits (n : Nat) : '\n' ∉ digits n := fun h => by
  have hdigit := isDigit_of_mem_digits h
  cases hdigit

theorem notMem_sphere (r : Binary64) : '\n' ∉ sphere s r :=
  List.not_mem_append (List.not_mem_append (List.not_mem_append
    (List.not_mem_append (by decide) (notMem_toScript r)) (by decide)) (notMem_digits _))
    (by decide)

theorem fills_sphere (r : Binary64) :
    Fills s (Node.template (.sphere r)) (textLines (sphere s r)) :=
  fills_holeLines (List.append_ne_nil_of_right_ne_nil _ (by decide)) (notMem_sphere s r) rfl

theorem notMem_flag (b : Bool) : '\n' ∉ flag b := by cases b <;> decide

theorem notMem_cylinder (h rTop rBottom : Binary64) (center : Bool) :
    '\n' ∉ cylinder s h rTop rBottom center := by
  have hvalues : '\n' ∉ Text.commas [digits s.resolution.toNat, h.toScript, rBottom.toScript,
      rTop.toScript, flag center] := by
    refine notMem_commas ?_
    simp only [List.forall_mem_cons]
    exact ⟨notMem_digits _, notMem_toScript h, notMem_toScript rBottom, notMem_toScript rTop,
      notMem_flag center, List.forall_mem_nil _⟩
  exact List.not_mem_append (List.not_mem_append (by decide) hvalues) (by decide)

theorem fills_cylinder (h rTop rBottom : Binary64) (center : Bool) :
    Fills s (Node.template (.cylinder h rTop rBottom center))
      (textLines (cylinder s h rTop rBottom center)) := by
  -- the number of fragments is the first of the values between commas
  have hfirst (word n end' : Text) (vs : List Text) (v : Text) :
      word ++ Text.commas (n :: v :: vs) ++ end'
        = word ++ n ++ (", ".toList ++ Text.commas (v :: vs) ++ end') := by
    have hcommas : Text.commas (n :: v :: vs) = n ++ (", ".toList ++ Text.commas (v :: vs)) :=
      Text.intercalate_cons_cons ", ".toList n v vs
    rw [hcommas, List.append_assoc word, List.append_assoc n, List.append_assoc word]
  exact fills_holeLines (by decide) (notMem_cylinder s h rTop rBottom center) (hfirst _ _ _ _ _)

theorem notMem_mesh (file : Path) : '\n' ∉ mesh s file := by
  have hhint : '\n' ∉ Segment.fill s .convexity := by
    rw [Segment.fill]
    split
    next => exact List.not_mem_nil
    next n => exact List.not_mem_append (by decide) (notMem_digits _)
  exact List.not_mem_append (List.not_mem_append (List.not_mem_append
    (List.not_mem_append (by decide) (Quoted.notMem_encode _)) (by decide)) hhint) (by decide)

theorem fills_mesh (file : Path) :
    Fills s (Node.template (.mesh file)) (textLines (mesh s file)) :=
  fills_holeLines (List.append_ne_nil_of_right_ne_nil _ (by decide)) (notMem_mesh s file) rfl

mutual

/-- The lines of a model are its template with the holes filled. -/
theorem fills_template : ∀ m : Node, Fills s m.template (m.lines s)
  | .literal text => fills_fixedLines text
  | .list cs => Fills.listLines (forall₂_fills cs)
  | .cube size center => fills_fixedLines (cube size center)
  | .sphere r => fills_sphere s r
  | .cylinder h rTop rBottom center => fills_cylinder s h rTop rBottom center
  | .polyhedron faces => fills_fixedLines (polyhedron faces)
  | .union cs => Fills.blockLines (by decide) (by decide) (forall₂_fills cs)
  | .difference parent cs =>
    Fills.blockLines (by decide) (by decide) (.cons (fills_template parent) (forall₂_fills cs))
  | .intersection cs => Fills.blockLines (by decide) (by decide) (forall₂_fills cs)
  | .transform op content =>
    Fills.blockLines (List.append_ne_nil_of_right_ne_nil _ (by decide)) (by decide)
      (.cons (fills_template content) .nil)
  | .mesh file => fills_mesh s file

theorem forall₂_fills :
    ∀ cs : List Node, List.Forall₂ (Fills s) (Node.templateAll cs) (Node.linesAll s cs)
  | [] => .nil
  | c :: cs => .cons (fills_template c) (forall₂_fills cs)

end

end Script

/-! ## Holes -/

/-- The number of holes of one kind in some lines. -/
def holes (hole : Segment) (ts : List (Line Segment)) : Nat := (ts.map (·.body.count hole)).sum

section Holes

variable {hole : Segment}

theorem holes_append (ts us : List (Line Segment)) :
    holes hole (ts ++ us) = holes hole ts + holes hole us := by
  rw [holes, List.map_append, List.sum_append]
  rfl

theorem holes_flatten (parts : List (List (Line Segment))) :
    holes hole parts.flatten = (parts.map (holes hole)).sum := by
  induction parts with
  | nil => rfl
  | cons ts parts ih => rw [List.flatten_cons, holes_append, ih, List.map_cons, List.sum_cons]

theorem holes_partLines (ts : List (Line Segment)) :
    holes hole (partLines ts) = holes hole ts := by
  by_cases hblank : IsBlankLine ts
  · obtain ⟨d, rfl⟩ := hblank
    rfl
  · rw [partLines_of_not_isBlankLine hblank, holes, List.map_map]
    rfl

theorem holes_listLines (parts : List (List (Line Segment))) :
    holes hole (listLines parts) = (parts.map (holes hole)).sum := by
  cases parts with
  | nil => rfl
  | cons ts parts => exact holes_flatten (ts :: parts)

variable (hhole : ∀ t, hole ≠ .fixed t)

include hhole

theorem holes_fixed (d : Nat) (t : Text) : holes hole [⟨d, [.fixed t]⟩] = 0 := by
  rw [holes, List.map_singleton, List.sum_singleton]
  exact List.count_eq_zero.mpr fun h => hhole t (List.mem_singleton.mp h)

theorem holes_blockLines (first last : Text) (parts : List (List (Line Segment))) :
    holes hole (blockLines [.fixed first] [.fixed last] parts) = (parts.map (holes hole)).sum := by
  have hparts : parts.map (holes hole ∘ partLines) = parts.map (holes hole) :=
    List.map_congr_left fun ts _ => holes_partLines ts
  have hlines : blockLines [.fixed first] [.fixed last] parts
      = [⟨0, [.fixed first]⟩] ++ ((parts.map partLines).flatten ++ [⟨0, [.fixed last]⟩]) := rfl
  rw [hlines, holes_append, holes_append, holes_fixed hhole, holes_fixed hhole, holes_flatten,
    List.map_map, hparts, Nat.zero_add, Nat.add_zero]

theorem holes_fixedLines (t : Text) : holes hole (fixedLines t) = 0 := by
  rw [holes, fixedLines, List.map_map]
  rw [List.sum_eq_zero_iff_forall_eq_nat]
  intro n hn
  obtain ⟨l, -, rfl⟩ := List.mem_map.mp hn
  refine List.count_eq_zero.mpr fun h => ?_
  simp only [Segment.ofText] at h
  split at h
  · cases h
  · exact hhole l (List.mem_singleton.mp h)

theorem holes_holeLines (first last : Text) (other : Segment) :
    holes hole (holeLines first other last) = if other = hole then 1 else 0 := by
  rw [holes, holeLines, List.map_singleton, List.sum_singleton, List.count_cons, List.count_cons,
    List.count_singleton]
  simp [Ne.symm (hhole _)]

end Holes

namespace Node

/-- What a node itself takes from the settings. -/
def hole? : Node → Option Segment
  | .sphere _ | .cylinder _ _ _ _ => some .resolution
  | .mesh _ => some .convexity
  | _ => none

section Holes

variable {hole : Segment} (hhole : ∀ t, hole ≠ .fixed t)

include hhole

/-- The holes of a model are those of the models directly below it, and its own. -/
theorem holes_template_eq (m : Node) : holes hole m.template
    = (if m.hole? = some hole then 1 else 0)
      + (m.children.map fun c => holes hole c.template).sum := by
  cases m with
  | literal text => simp [template, holes_fixedLines hhole, children, hole?]
  | cube size center => simp [template, holes_fixedLines hhole, children, hole?]
  | polyhedron faces => simp [template, holes_fixedLines hhole, children, hole?]
  | sphere r => simp [template, holes_holeLines hhole, children, hole?]
  | cylinder h rTop rBottom center => simp [template, holes_holeLines hhole, children, hole?]
  | mesh file => simp [template, holes_holeLines hhole, children, hole?]
  | list cs =>
    simp [template, holes_listLines, templateAll_eq_map, children, hole?, Function.comp_def]
  | union cs =>
    simp [template, holes_blockLines hhole, templateAll_eq_map, children, hole?, Function.comp_def]
  | difference parent cs =>
    simp [template, holes_blockLines hhole, templateAll_eq_map, children, hole?, Function.comp_def]
  | intersection cs =>
    simp [template, holes_blockLines hhole, templateAll_eq_map, children, hole?, Function.comp_def]
  | transform op content => simp [template, holes_blockLines hhole, children, hole?]

theorem holes_template (m : Node) :
    holes hole m.template = m.parts.countP fun t => t.hole? = some hole := by
  induction m using induction with
  | step m ih =>
    rw [holes_template_eq hhole, parts_eq, List.countP_cons, List.countP_flatMap,
      List.map_congr_left ih, Nat.add_comm]
    simp only [decide_eq_true_eq, Function.comp_def]

theorem count_row (l : Line Segment) : l.row.count hole = l.body.count hole := by
  rw [Line.row]
  split
  next h => rw [h]
  next => rw [List.count_cons_of_ne (hhole _).symm]

/-- What stands between the lines is no hole. -/
theorem count_segments (m : Node) :
    m.segments.count hole = m.parts.countP fun t => t.hole? = some hole := by
  have hrows (rows : List (List Segment)) :
      (List.intercalate [.fixed ['\n']] rows).count hole = (rows.map (List.count hole)).sum := by
    cases rows with
    | nil => rfl
    | cons r rows =>
      have hseparator (r : List Segment) :
          List.count hole ([.fixed ['\n']] ++ r) = List.count hole r := by
        rw [List.singleton_append, List.count_cons_of_ne (hhole _).symm]
      rw [Text.intercalate_cons, List.count_append, List.count_flatMap, List.map_cons,
        List.sum_cons]
      simp only [Function.comp_def, hseparator]
  rw [← holes_template hhole, segments, hrows, rows, List.map_map, holes]
  exact congrArg List.sum (List.map_congr_left fun l _ => count_row hhole l)

end Holes

/-! ## The template of a part -/

theorem isPrinter_template : IsPrinter template where
  list cs := by rw [template, templateAll_eq_map]
  block f h := by
    cases f with
    | list before after => cases h
    | union before after =>
      exact ⟨_, _, fun x => by
        rw [Frame.plug, template, templateAll_eq_map, List.map_append, List.map_cons]; rfl⟩
    | intersection before after =>
      exact ⟨_, _, fun x => by
        rw [Frame.plug, template, templateAll_eq_map, List.map_append, List.map_cons]; rfl⟩
    | differenceOf children =>
      exact ⟨_, _, fun x => by rw [Frame.plug, template, templateAll_eq_map]; rfl⟩
    | difference parent before after =>
      exact ⟨_, _, fun x => by
        rw [Frame.plug, template, templateAll_eq_map, List.map_append, List.map_cons]; rfl⟩
    | transform op => exact ⟨_, _, fun x => by rw [Frame.plug, template]; rfl⟩

/-- The lines of a part stand among the lines of the model, moved by some number of steps. -/
theorem exists_rows_infix {m t : Node} (ht : t ∈ m.parts) (hinked : IsInked t.template) :
    ∃ d, (t.template.map fun l => (l.deeper d).row) <:+: m.rows := by
  obtain ⟨C, rfl⟩ := Context.exists_plug_of_mem_parts ht
  obtain ⟨as, bs, hlines⟩ := lines_plug isPrinter_template C
  refine ⟨C.blocks, as.map Line.row, bs.map Line.row, ?_⟩
  rw [rows, hlines t hinked, List.map_append, List.map_append, List.map_map]
  rfl

/-! ## All settings at once -/

variable (s : Settings)

theorem flatMap_fill_row {l : Line Segment}
    (h : l.body.flatMap (Segment.fill s) = [] → l.body = []) :
    l.row.flatMap (Segment.fill s) = (l.fill s).toText := by
  rw [Line.row, Line.toText]
  split
  next hempty => rw [Line.fill, hempty]; rfl
  next hne => rw [Line.fill, Text.indentLine_of_ne_nil _ (mt h hne), List.flatMap_cons]; rfl

theorem split_render_eq_fill (m : Node) :
    Text.split (m.render s) = m.rows.map fun row => row.flatMap (Segment.fill s) := by
  have hfills := fills_template s m
  have hprints : Text.split (m.render s) = (m.lines s).map Line.toText := prints_render s m
  rw [hprints, hfills.lines, rows, List.map_map, List.map_map]
  exact List.map_congr_left fun l hl => (flatMap_fill_row s (hfills.inked l hl)).symm

theorem flatMap_fill_segments (m : Node) :
    m.segments.flatMap (Segment.fill s)
      = Text.join (m.rows.map fun row => row.flatMap (Segment.fill s)) := by
  rw [segments]
  cases m.rows with
  | nil => rfl
  | cons row rows =>
    have hseparator (row : List Segment) :
        ([Segment.fixed ['\n']] ++ row).flatMap (Segment.fill s)
          = ['\n'] ++ row.flatMap (Segment.fill s) := rfl
    rw [List.map_cons, Text.join, Text.intercalate_cons, Text.intercalate_cons,
      List.flatMap_append, List.flatMap_assoc, List.flatMap_map]
    simp only [hseparator]

/-- **The settings reach a script only through its holes.** The segments of a model do not depend on
them: under all settings the script is the segments with the holes filled, and its lines are the
rows with the holes filled. There is one hole for the fragments in each round body and one for the
hint behind each mesh. Raw text and the paths of meshes stand in segments that are fixed. -/
theorem render_eq_fill (m : Node) :
    (∀ s, m.render s = m.segments.flatMap (Segment.fill s))
    ∧ m.segments.count .resolution = m.parts.countP isRound
    ∧ m.segments.count .convexity = m.parts.countP isMesh
    ∧ (∀ s, Text.split (m.render s) = m.rows.map fun row => row.flatMap (Segment.fill s))
    ∧ (∀ text : Text, .literal text ∈ m.parts → text ≠ [] → ∃ d,
        ((Text.split text).map fun line =>
          if line = [] then [] else [.fixed (Text.indentation d), .fixed line]) <:+: m.rows)
    ∧ ∀ file, .mesh file ∈ m.parts → ∃ d,
        [.fixed (Text.indentation d),
          .fixed ("import(\"".toList ++ Quoted.encode file.display ++ ['"']), .convexity,
          .fixed ");".toList] ∈ m.rows := by
  have hround : (fun t : Node => decide (t.hole? = some .resolution)) = isRound := by
    funext t
    cases t <;> rfl
  have hmesh : (fun t : Node => decide (t.hole? = some .convexity)) = isMesh := by
    funext t
    cases t <;> rfl
  refine ⟨fun s => ?_, ?_, ?_, fun s => split_render_eq_fill s m, fun text htext hne => ?_,
    fun file hfile => ?_⟩
  · rw [flatMap_fill_segments, ← split_render_eq_fill, Text.join_split]
  · rw [count_segments (by simp), hround]
  · rw [count_segments (by simp), hmesh]
  · -- only the empty text would be left out by a block
    have hinked : IsInked (template (.literal text)) := by
      refine ⟨by simp [template, fixedLines, Text.split_ne_nil], fun hblank => ?_⟩
      have hlines := (fills_fixedLines (s := {}) text).isBlankLine_iff.mpr hblank
      exact hne ((prints_textLines text).isBlankLine_iff.mp hlines)
    obtain ⟨d, hrows⟩ := exists_rows_infix htext hinked
    refine ⟨d, ?_⟩
    rw [template, fixedLines, List.map_map] at hrows
    convert hrows using 3 with line
    by_cases hline : line = [] <;> simp [Line.row, Line.deeper, Segment.ofText, hline]
  · obtain ⟨d, hrows⟩ := exists_rows_infix hfile
      ⟨by simp [template, holeLines], by rintro ⟨d, hd⟩; simp [template, holeLines] at hd⟩
    exact ⟨d, hrows.subset (by simp [template, holeLines, Line.row, Line.deeper])⟩

/-- Raw text and a path that look like a setting stand in fixed segments beside the only holes. -/
theorem render_eq_fill_of_lookalikes :
    let text := "$fn=50".toList
    let file := Path.ofString "$fn=50.stl"
    let m : Node := .union [.literal text, .list [.mesh file, .sphere .zero]]
    .literal text ∈ m.parts ∧ text ≠ [] ∧ .mesh file ∈ m.parts
      ∧ m.segments.count .resolution = 1 ∧ m.segments.count .convexity = 1
      ∧ (∃ d, [[.fixed (Text.indentation d), .fixed text]] <:+: m.rows)
      ∧ ∃ d, [.fixed (Text.indentation d),
          .fixed ("import(\"".toList ++ Quoted.encode file.display ++ ['"']), .convexity,
          .fixed ");".toList] ∈ m.rows := by
  intro text file m
  have htext : .literal text ∈ m.parts := by simp [m, parts, partsAll]
  have hne : text ≠ [] := by decide
  have hfile : .mesh file ∈ m.parts := by simp [m, parts, partsAll]
  obtain ⟨-, hround, hmesh, -, hliteral, hpath⟩ := render_eq_fill m
  exact ⟨htext, hne, hfile, hround, hmesh, hliteral text htext hne, hpath file hfile⟩

end Node

end SolidScript
