import SolidScript.Node.Build
import SolidScript.Proofs.Script.Context

/-!
# Lists leave no trace

A list has no text of its own. Inside another list its elements can stand in its place, since lines
that are put together twice are lines that are put together (`Text.join_append_join_cons`). Inside a
block they can if each of them has a text: a block leaves out a part without text, and a list of two
such parts is a part with a text (`Script.block_append_join_cons`). So it makes no difference that
the subjects of an operation go through a list, and a union shows the same lines of the same
subjects.

The main statement is `seesThroughLists`.
-/

namespace SolidScript

namespace Text

theorem eq_of_split_eq {t u : Text} (h : split t = split u) : t = u := by
  rw [← join_split t, h, join_split]

/-- Texts that are joined on their own and among others are joined with the others. -/
theorem join_append_join_cons {ts : List Text} (h : ts ≠ []) (before after : List Text) :
    join (before ++ join ts :: after) = join (before ++ ts ++ after) := by
  apply eq_of_split_eq
  rw [split_join_eq_flatMap (by simp), split_join_eq_flatMap (by simp [h])]
  simp only [List.flatMap_append, List.flatMap_cons, split_join_eq_flatMap h, List.append_assoc]

theorem join_ne_nil {ts : List Text} (h : ts ≠ []) (htexts : ∀ t ∈ ts, t ≠ []) : join ts ≠ [] := by
  obtain ⟨t, ts, rfl⟩ := List.exists_cons_of_ne_nil h
  intro hnil
  cases ts with
  | nil => exact htexts t List.mem_cons_self (by simpa [join] using hnil)
  | cons u us => simp [join_cons_cons] at hnil

end Text

namespace Script

/-- The lines of a block without its first and its last one. -/
def bodyLines (t : Text) : List Text := (Text.split t).tail.dropLast

/-- The lines of a block around lines, inside `depth` other blocks. -/
def placed (depth : Nat) (head : Text) (body : List Text) : List Text :=
  Text.indentLine depth (head ++ " \x7b".toList)
    :: (body.map (Text.indentLine (depth + 1)) ++ [Text.indentLine depth "\x7d;".toList])

variable {head : Text} {ts : List Text}

theorem block_ne_nil (head : Text) (ts : List Text) : block head ts ≠ [] := by
  simp [block]

/-- Parts that all have a text leave all their lines in a block. -/
theorem flatMap_blockPart (h : ∀ t ∈ ts, t ≠ []) :
    ts.flatMap blockPart
      = ((ts.flatMap Text.split).map (Text.indentLine 1)).flatMap fun line => line ++ ['\n'] := by
  rw [List.flatMap_map, List.flatMap_assoc]
  refine List.flatMap_congr fun t ht => ?_
  rw [blockPart, if_neg (by simpa using h t ht)]

theorem block_append_join_cons (h : ts ≠ []) (htexts : ∀ t ∈ ts, t ≠ []) (head : Text)
    (before after : List Text) :
    block head (before ++ Text.join ts :: after) = block head (before ++ ts ++ after) := by
  have hjoin : blockPart (Text.join ts) = ts.flatMap blockPart := by
    have hone := flatMap_blockPart (List.forall_mem_singleton.mpr (Text.join_ne_nil h htexts))
    rw [List.flatMap_singleton, List.flatMap_singleton, Text.split_join_eq_flatMap h] at hone
    rw [hone, flatMap_blockPart htexts]
  simp only [block, List.flatMap_append, List.flatMap_cons, hjoin, List.append_assoc]

theorem split_block (hhead : '\n' ∉ head) (htexts : ∀ t ∈ ts, t ≠ []) :
    Text.split (block head ts) = placed 0 head (ts.flatMap Text.split) := by
  have hlines : ∀ l ∈ (ts.flatMap Text.split).map (Text.indentLine 1), '\n' ∉ l := by
    intro l hl
    obtain ⟨k, hk, rfl⟩ := List.mem_map.mp hl
    obtain ⟨t, -, hk⟩ := List.mem_flatMap.mp hk
    exact Text.notMem_indentLine 1 (Text.notMem_of_mem_split hk)
  have hfirst : '\n' ∉ head ++ " \x7b".toList := by simp [hhead]
  have htext : block head ts = (head ++ " \x7b".toList)
      ++ '\n' :: (ts.flatMap blockPart ++ "\x7d;".toList) := by
    simp [block]
  rw [htext, Text.split_append_line hfirst, flatMap_blockPart htexts,
    Text.split_flatMap_line hlines, placed, Text.indentLine_zero]
  rfl

theorem bodyLines_block (hhead : '\n' ∉ head) (htexts : ∀ t ∈ ts, t ≠ []) :
    bodyLines (block head ts) = (ts.flatMap Text.split).map (Text.indentLine 1) := by
  rw [bodyLines, split_block hhead htexts, placed, List.tail_cons, List.dropLast_concat]

/-- A block inside other blocks is a block with other blocks around it. -/
theorem map_indentLine_placed (depth : Nat) (head : Text) (body : List Text) :
    (placed 0 head body).map (Text.indentLine depth) = placed depth head body := by
  simp only [placed, List.map_cons, List.map_append, List.map_map, List.map_nil,
    Text.indentLine_indentLine, Function.comp_def, Nat.add_zero]

end Script

/-! ## Builders -/

namespace TransformOp

open Node

/-- The builder of an operation, for several subjects. -/
def build : TransformOp → List Node → Node
  | .scale v => scaleAll v.x v.y v.z
  | .resize v => resizeAll v.x v.y v.z
  | .rotate v => rotateAll v.x v.y v.z
  | .translate v => translateAll v.x v.y v.z
  | .mirror v => mirrorAll v.x v.y v.z
  | .color c => colorAll c.r c.g c.b c.a

/-- The method of an operation, for the model at hand. -/
def apply : TransformOp → Node → Node
  | .scale v, m => m.scaled v.x v.y v.z
  | .resize v, m => m.resized v.x v.y v.z
  | .rotate v, m => m.rotated v.x v.y v.z
  | .translate v, m => m.translated v.x v.y v.z
  | .mirror v, m => m.mirrored v.x v.y v.z
  | .color c, m => m.colored c.r c.g c.b c.a

theorem build_eq_wrap (op : TransformOp) : op.build = wrap op := by cases op <;> rfl

theorem apply_eq_transform (op : TransformOp) (m : Node) : op.apply m = .transform op m := by
  cases op <;> rfl

end TransformOp

namespace Node

open Script

variable (s : Settings)

/-! ## Elements in the place of their list -/

/-- The texts of several models, each with something in it. -/
theorem forall_mem_map_render {cs : List Node} (h : ∀ c ∈ cs, c.render s ≠ []) :
    ∀ t ∈ cs.map (render s), t ≠ [] := by
  simpa using h

theorem render_list_append {es : List Node} (h : es ≠ []) (before after : List Node) :
    (list (before ++ list es :: after)).render s = (list (before ++ es ++ after)).render s := by
  simp only [render, renderAll_eq_map, List.map_append, List.map_cons]
  exact Text.join_append_join_cons (by simpa using h) _ _

section Blocks

variable {es : List Node} (h : es ≠ []) (htexts : ∀ e ∈ es, e.render s ≠ [])
  (before after : List Node)

include h htexts

theorem render_union_append :
    (union (before ++ list es :: after)).render s = (union (before ++ es ++ after)).render s := by
  simp only [render, renderAll_eq_map, List.map_append, List.map_cons]
  exact block_append_join_cons (by simpa using h) (forall_mem_map_render s htexts) _ _ _

theorem render_intersection_append :
    (intersection (before ++ list es :: after)).render s
      = (intersection (before ++ es ++ after)).render s := by
  simp only [render, renderAll_eq_map, List.map_append, List.map_cons]
  exact block_append_join_cons (by simpa using h) (forall_mem_map_render s htexts) _ _ _

theorem render_difference_append (parent : Node) :
    (difference parent (before ++ list es :: after)).render s
      = (difference parent (before ++ es ++ after)).render s := by
  simp only [render, renderAll_eq_map, List.map_append, List.map_cons, ← List.cons_append]
  exact block_append_join_cons (by simpa using h) (forall_mem_map_render s htexts) _ _ _

/-- The subjects of an operation stand in its block one after the other. -/
theorem render_build (op : TransformOp) :
    (op.build es).render s = block (transformHead op) (es.map (render s)) := by
  have hlist : (transform op (.list es)).render s
      = block (transformHead op) (es.map (render s)) := by
    have hblock := block_append_join_cons (by simpa using h) (forall_mem_map_render s htexts)
      (transformHead op) [] []
    simpa only [render, renderAll_eq_map, List.nil_append, List.append_nil] using hblock
  rw [TransformOp.build_eq_wrap]
  unfold wrap
  split
  next m => rw [render, List.map_singleton]
  next => exact hlist

end Blocks

theorem render_transform_singleton (op : TransformOp) (m : Node) :
    (transform op (.list [m])).render s = (transform op m).render s := by
  simp [render, renderAll_eq_map, Text.join]

/-! ## In place -/

/-- A context puts the same lines around the lines of whatever has a text. -/
theorem exists_split_render_plug (C : Context) : ∃ above below : List Text, ∀ x : Node,
    x.render s ≠ [] → Text.split ((C.plug x).render s)
      = above ++ (Text.split (x.render s)).map (Text.indentLine C.blocks) ++ below := by
  obtain ⟨as, bs, hlines⟩ := lines_plug (isPrinter_lines s) C
  refine ⟨as.map Line.toText, bs.map Line.toText, fun x hx => ?_⟩
  have hwhole : Text.split ((C.plug x).render s) = ((C.plug x).lines s).map Line.toText :=
    prints_render s (C.plug x)
  have hpart : Text.split (x.render s) = (x.lines s).map Line.toText := prints_render s x
  rw [hwhole, hlines x (isInked_lines s hx), hpart, List.map_append, List.map_append, List.map_map,
    List.map_map]
  congr 2
  exact List.map_congr_left fun l _ => l.toText_deeper C.blocks

/-- What a script shows of lists at a place in a model. -/
structure SeesThroughLists (C : Context) : Prop where
  /-- The elements of a list can stand in its place in another list. -/
  list : ∀ es before after, es ≠ [] →
    (C.plug (.list (before ++ .list es :: after))).render s
      = (C.plug (.list (before ++ es ++ after))).render s
  /-- If each of them has a text, they can stand in its place in a combination. -/
  combination : ∀ es before after, es ≠ [] → (∀ e ∈ es, e.render s ≠ []) →
    (C.plug (.union (before ++ .list es :: after))).render s
        = (C.plug (.union (before ++ es ++ after))).render s
      ∧ (C.plug (.intersection (before ++ .list es :: after))).render s
        = (C.plug (.intersection (before ++ es ++ after))).render s
      ∧ ∀ parent, (C.plug (.difference parent (before ++ .list es :: after))).render s
        = (C.plug (.difference parent (before ++ es ++ after))).render s
  /-- An operation shows its subjects as a union does. -/
  body : ∀ (op : TransformOp) first rest, (∀ m ∈ first :: rest, m.render s ≠ []) →
    bodyLines ((op.build (first :: rest)).render s) = bodyLines ((unite first rest).render s)
  /-- So it does in place: nothing but the first line of the block is another one. -/
  inPlace : ∃ above below : List Text, ∀ (op : TransformOp) first rest,
    (∀ m ∈ first :: rest, m.render s ≠ []) →
      let lines := (first :: rest).flatMap fun m => Text.split (m.render s)
      Text.split ((C.plug (op.build (first :: rest))).render s)
          = above ++ placed C.blocks (transformHead op) lines ++ below
        ∧ Text.split ((C.plug (unite first rest)).render s)
          = above ++ placed C.blocks "union()".toList lines ++ below
  /-- A single subject may or may not stand in a list. -/
  single : ∀ (op : TransformOp) m,
    (C.plug (op.build [m])).render s = (C.plug (.transform op (.list [m]))).render s
      ∧ (C.plug (op.apply m)).render s = (C.plug (.transform op (.list [m]))).render s

theorem render_union (cs : List Node) :
    (union cs).render s = block "union()".toList (cs.map (render s)) := by
  rw [render, renderAll_eq_map]

/-- The lines of a block with the lines of models in it. -/
theorem split_block_map_render {head : Text} (hhead : '\n' ∉ head) {cs : List Node}
    (h : ∀ c ∈ cs, c.render s ≠ []) : Text.split (block head (cs.map (render s)))
      = placed 0 head (cs.flatMap fun c => Text.split (c.render s)) := by
  rw [split_block hhead (forall_mem_map_render s h), List.flatMap_map]

/-- **Lists leave no trace in a script**, at whatever place of a model: their elements can stand in
their place, and it makes no difference whether the subjects of an operation go through one. -/
theorem seesThroughLists (C : Context) : SeesThroughLists s C where
  list es before after h := render_plug_congr s C (render_list_append s h before after)
  combination es before after h htexts :=
    ⟨render_plug_congr s C (render_union_append s h htexts before after),
      render_plug_congr s C (render_intersection_append s h htexts before after),
      fun parent => render_plug_congr s C (render_difference_append s h htexts before after parent)⟩
  body op first rest htexts := by
    have htexts' := forall_mem_map_render s htexts
    rw [render_build s (List.cons_ne_nil first rest) htexts, unite, render_union,
      bodyLines_block (notMem_transformHead op) htexts', bodyLines_block (by decide) htexts']
  inPlace := by
    obtain ⟨above, below, hplace⟩ := exists_split_render_plug s C
    refine ⟨above, below, fun op first rest htexts => ?_⟩
    have hbuild := render_build s (List.cons_ne_nil first rest) htexts op
    have hunion := render_union s (first :: rest)
    rw [hplace _ (hbuild ▸ block_ne_nil _ _), unite,
      hplace _ (hunion ▸ block_ne_nil _ _), hbuild, hunion,
      split_block_map_render s (notMem_transformHead op) htexts,
      split_block_map_render s (by decide) htexts, map_indentLine_placed, map_indentLine_placed]
    exact ⟨rfl, rfl⟩
  single op m := by
    have hone := render_transform_singleton s op m
    rw [op.build_eq_wrap, wrap_singleton, op.apply_eq_transform]
    exact ⟨render_plug_congr s C hone.symm, render_plug_congr s C hone.symm⟩

/-- A list of two texts, taken away from a third one inside a list, and the same texts moved. -/
theorem seesThroughLists_of_two_texts :
    let C : Context := [.list [.literal "x();".toList] [], .union [] []]
    let a : Node := .literal "a();".toList
    let b : Node := .literal "b();\n\nc();".toList
    let op : TransformOp := .mirror ⟨.zero, .zero, .zero⟩
    (C.plug (.difference a [.list [a, b], b])).render {}
        = (C.plug (.difference a [a, b, b])).render {}
      ∧ bodyLines ((op.build [a, b]).render {}) = bodyLines ((unite a [b]).render {})
      ∧ (C.plug (op.apply b)).render {} = (C.plug (.transform op (.list [b]))).render {} := by
  intro C a b op
  have h := seesThroughLists {} C
  have htexts : ∀ m ∈ [a, b], m.render {} ≠ [] := by decide
  exact ⟨(h.combination [a, b] [] [b] (by simp) htexts).2.2 a, h.body op a [b] htexts,
    (h.single op b).2⟩

end Node

end SolidScript
