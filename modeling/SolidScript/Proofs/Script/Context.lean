import Mathlib.Algebra.GroupWithZero.Nat
import SolidScript.Proofs.Script.Lines

/-!
# Models with a hole

A `Frame` is a node with a hole in place of one of the models directly below it, and a `Context` is
a way from the root of a model to a hole: the frames that are passed on it. What stands in the hole
is printed between two texts that do not depend on it, moved by one step for each block on the way
(`render_plug`). A model without text is the exception, since a block leaves it out.

That does not take a look at texts. It holds of every printer that puts blocks and lists together
line by line (`IsPrinter`), and is proved for one frame (`lines_plug_frame`) and from that for all
the frames of a context (`lines_plug`).
-/

namespace SolidScript

open Script

/-- A node with a hole in place of a model below it. -/
inductive Frame where
  | list (before after : List Node)
  | union (before after : List Node)
  | intersection (before after : List Node)
  /-- What is taken away is given, and what it is taken from is not. -/
  | differenceOf (children : List Node)
  | difference (parent : Node) (before after : List Node)
  | transform (op : TransformOp)

namespace Frame

/-- The node with a model in the hole. -/
def plug : Frame → Node → Node
  | .list before after, x => .list (before ++ x :: after)
  | .union before after, x => .union (before ++ x :: after)
  | .intersection before after, x => .intersection (before ++ x :: after)
  | .differenceOf children, x => .difference x children
  | .difference parent before after, x => .difference parent (before ++ x :: after)
  | .transform op, x => .transform op x

/-- The models in front of the hole. -/
def before : Frame → List Node
  | .list before _ | .union before _ | .intersection before _ => before
  | .difference parent before _ => parent :: before
  | .differenceOf _ | .transform _ => []

/-- The models behind the hole. -/
def after : Frame → List Node
  | .list _ after | .union _ after | .intersection _ after | .difference _ _ after => after
  | .differenceOf children => children
  | .transform _ => []

/-- The number of blocks that the frame puts around its hole. -/
def blocks : Frame → Nat
  | .list _ _ => 0
  | _ => 1

/-- A model below a node stands in the hole of some frame. -/
theorem exists_plug_of_mem_children {m c : Node} (h : c ∈ m.children) :
    ∃ f : Frame, m = f.plug c := by
  cases m with
  | list cs =>
    obtain ⟨before, after, rfl⟩ := List.append_of_mem h
    exact ⟨.list before after, rfl⟩
  | union cs =>
    obtain ⟨before, after, rfl⟩ := List.append_of_mem h
    exact ⟨.union before after, rfl⟩
  | intersection cs =>
    obtain ⟨before, after, rfl⟩ := List.append_of_mem h
    exact ⟨.intersection before after, rfl⟩
  | difference parent cs =>
    rcases List.mem_cons.mp h with rfl | h
    · exact ⟨.differenceOf cs, rfl⟩
    · obtain ⟨before, after, rfl⟩ := List.append_of_mem h
      exact ⟨.difference parent before after, rfl⟩
  | transform op content =>
    rw [List.mem_singleton.mp h]
    exact ⟨.transform op, rfl⟩
  | _ => cases h

end Frame

/-- The frames on the way to a hole, from the outside in. -/
abbrev Context := List Frame

namespace Context

/-- The model with another one in the hole. -/
def plug (C : Context) (x : Node) : Node := C.foldr Frame.plug x

/-- The number of blocks around the hole. -/
def blocks (C : Context) : Nat := (C.map Frame.blocks).sum

theorem plug_cons (f : Frame) (C : Context) (x : Node) : plug (f :: C) x = f.plug (C.plug x) := rfl

theorem blocks_cons (f : Frame) (C : Context) : blocks (f :: C) = f.blocks + C.blocks := by
  rw [blocks, List.map_cons, List.sum_cons]
  rfl

/-- A part of a model stands in the hole of some context. -/
theorem exists_plug_of_mem_parts {m t : Node} (h : t ∈ m.parts) : ∃ C : Context, m = C.plug t := by
  induction m using Node.induction with
  | step m ih =>
    rw [Node.parts_eq] at h
    rcases List.mem_cons.mp h with rfl | h
    · exact ⟨[], rfl⟩
    · obtain ⟨c, hc, ht⟩ := List.mem_flatMap.mp h
      obtain ⟨f, rfl⟩ := Frame.exists_plug_of_mem_children hc
      obtain ⟨C, rfl⟩ := ih c hc ht
      exact ⟨f :: C, rfl⟩

end Context

/-! ## Printers -/

section Printer

variable {α : Type}

/-- The lines are there, and they are more than one empty line. -/
def IsInked (ls : List (Line α)) : Prop := ls ≠ [] ∧ ¬IsBlankLine ls

theorem IsInked.surrounded {ls : List (Line α)} (h : IsInked ls) (d : Nat)
    (as bs : List (Line α)) : IsInked (as ++ ls.map (Line.deeper d) ++ bs) := by
  obtain ⟨l, ls, rfl⟩ := List.exists_cons_of_ne_nil h.1
  refine ⟨by simp, ?_⟩
  rintro ⟨e, heq⟩
  -- only a single line can be a single empty line
  have hlength := congrArg List.length heq
  simp only [List.length_append, List.length_map, List.length_cons, List.length_nil] at hlength
  obtain rfl : as = [] := List.length_eq_zero_iff.mp (by omega)
  obtain rfl : bs = [] := List.length_eq_zero_iff.mp (by omega)
  obtain rfl : ls = [] := List.length_eq_zero_iff.mp (by omega)
  have hbody : l.body = [] := by
    simp only [List.nil_append, List.append_nil, List.map_cons, List.map_nil, List.cons.injEq,
      and_true] at heq
    exact congrArg Line.body heq
  exact h.2 ⟨l.depth, by rw [← hbody]⟩

theorem map_deeper_zero (ls : List (Line α)) : ls.map (Line.deeper 0) = ls := by
  rw [funext Line.deeper_zero, List.map_id']

theorem map_deeper_map_deeper (d e : Nat) (ls : List (Line α)) :
    (ls.map (Line.deeper e)).map (Line.deeper d) = ls.map (Line.deeper (d + e)) := by
  rw [List.map_map]
  exact List.map_congr_left fun l _ => l.deeper_deeper d e

/-- The function puts lists and blocks together line by line. -/
structure IsPrinter (print : Node → List (Line α)) : Prop where
  list : ∀ cs, print (.list cs) = listLines (cs.map print)
  block : ∀ f : Frame, f.blocks = 1 → ∃ first last, ∀ x,
    print (f.plug x) = blockLines first last (f.before.map print ++ print x :: f.after.map print)

variable {print : Node → List (Line α)} (hprint : IsPrinter print)

include hprint

/-- One frame puts the same lines around whatever is in its hole. -/
theorem lines_plug_frame (f : Frame) : ∃ as bs, ∀ x, IsInked (print x) →
    print (f.plug x) = as ++ (print x).map (Line.deeper f.blocks) ++ bs := by
  have hblock (h : f.blocks = 1) : ∃ as bs, ∀ x, IsInked (print x) →
      print (f.plug x) = as ++ (print x).map (Line.deeper f.blocks) ++ bs := by
    obtain ⟨first, last, hlines⟩ := hprint.block f h
    refine ⟨⟨0, first⟩ :: (f.before.map print).flatMap partLines,
      (f.after.map print).flatMap partLines ++ [⟨0, last⟩], fun x hx => ?_⟩
    rw [hlines, blockLines, List.flatMap_append, List.flatMap_cons,
      partLines_of_not_isBlankLine hx.2, h]
    simp only [List.cons_append, List.append_assoc]
  cases f with
  | list before after =>
    refine ⟨(before.map print).flatten, (after.map print).flatten, fun x _ => ?_⟩
    have hne : (before ++ x :: after).map print ≠ [] := by simp
    rw [Frame.plug, hprint.list, listLines_of_ne_nil hne, List.map_append, List.map_cons,
      List.flatten_append, List.flatten_cons, Frame.blocks, map_deeper_zero, List.append_assoc]
  | union before after => exact hblock rfl
  | intersection before after => exact hblock rfl
  | differenceOf children => exact hblock rfl
  | difference parent before after => exact hblock rfl
  | transform op => exact hblock rfl

/-- So do all the frames of a context together. -/
theorem lines_plug (C : Context) : ∃ as bs, ∀ x, IsInked (print x) →
    print (C.plug x) = as ++ (print x).map (Line.deeper C.blocks) ++ bs := by
  induction C with
  | nil =>
    refine ⟨[], [], fun x _ => ?_⟩
    rw [List.nil_append, List.append_nil]
    exact (map_deeper_zero (print x)).symm
  | cons f C ih =>
    obtain ⟨as, bs, hinner⟩ := ih
    obtain ⟨cs, ds, houter⟩ := lines_plug_frame hprint f
    refine ⟨cs ++ as.map (Line.deeper f.blocks), bs.map (Line.deeper f.blocks) ++ ds,
      fun x hx => ?_⟩
    have hinked : IsInked (print (Context.plug C x)) := by
      rw [hinner x hx]
      exact hx.surrounded _ as bs
    rw [Context.plug_cons, houter _ hinked, hinner x hx, Context.blocks_cons, List.map_append,
      List.map_append, map_deeper_map_deeper]
    simp only [List.append_assoc]

end Printer

/-! ## Texts -/

namespace Node

variable (s : Settings)

theorem linesAll_eq_map (cs : List Node) : linesAll s cs = cs.map (lines s) := by
  induction cs with
  | nil => rfl
  | cons c cs ih => rw [linesAll, ih, List.map_cons]

theorem renderAll_eq_map (cs : List Node) : renderAll s cs = cs.map (render s) := by
  induction cs with
  | nil => rfl
  | cons c cs ih => rw [renderAll, ih, List.map_cons]

theorem isPrinter_lines : IsPrinter (lines s) where
  list cs := by rw [lines, linesAll_eq_map]
  block f h := by
    cases f with
    | list before after => cases h
    | union before after =>
      exact ⟨_, _, fun x => by
        rw [Frame.plug, lines, linesAll_eq_map, List.map_append, List.map_cons]; rfl⟩
    | intersection before after =>
      exact ⟨_, _, fun x => by
        rw [Frame.plug, lines, linesAll_eq_map, List.map_append, List.map_cons]; rfl⟩
    | differenceOf children =>
      exact ⟨_, _, fun x => by rw [Frame.plug, lines, linesAll_eq_map]; rfl⟩
    | difference parent before after =>
      exact ⟨_, _, fun x => by
        rw [Frame.plug, lines, linesAll_eq_map, List.map_append, List.map_cons]; rfl⟩
    | transform op => exact ⟨_, _, fun x => by rw [Frame.plug, lines]; rfl⟩

/-- A model with some text has some lines that are not one empty line. -/
theorem isInked_lines {x : Node} (h : x.render s ≠ []) : IsInked (x.lines s) := by
  have hprints := prints_render s x
  refine ⟨?_, fun hblank => h (hprints.isBlankLine_iff.mp hblank)⟩
  rintro hnil
  have hsplit : Text.split (x.render s) = (x.lines s).map Line.toText := hprints
  rw [hnil] at hsplit
  exact Text.split_ne_nil _ hsplit

/-- The text of a model in the hole of a frame goes into the text of the whole, and nothing else of
the model does. -/
theorem render_plug_frame_congr (f : Frame) {x y : Node} (h : x.render s = y.render s) :
    (f.plug x).render s = (f.plug y).render s := by
  cases f <;> simp only [Frame.plug, render, renderAll_eq_map, List.map_append, List.map_cons, h]

theorem render_plug_congr (C : Context) {x y : Node} (h : x.render s = y.render s) :
    (C.plug x).render s = (C.plug y).render s := by
  induction C with
  | nil => exact h
  | cons f C ih => exact render_plug_frame_congr s f ih

end Node

/-- Lines with others around them, as one text. -/
theorem exists_join_surrounded (as bs : List Text) : ∃ pre post, ∀ ls : List Text, ls ≠ [] →
    Text.join (as ++ ls ++ bs) = pre ++ Text.join ls ++ post := by
  have hbefore : ∃ pre, ∀ ls : List Text, ls ≠ [] → Text.join (as ++ ls) = pre ++ Text.join ls := by
    cases as with
    | nil => exact ⟨[], fun _ _ => rfl⟩
    | cons a as =>
      refine ⟨Text.join (a :: as) ++ ['\n'], fun ls hls => ?_⟩
      rw [Text.join_append (List.cons_ne_nil a as) hls, List.append_assoc, List.singleton_append]
  have hafter : ∃ post, ∀ ls : List Text, ls ≠ [] →
      Text.join (ls ++ bs) = Text.join ls ++ post := by
    cases bs with
    | nil => exact ⟨[], fun ls _ => by rw [List.append_nil, List.append_nil]⟩
    | cons b bs => exact ⟨'\n' :: Text.join (b :: bs), fun ls hls => Text.join_append hls (by simp)⟩
  obtain ⟨pre, hpre⟩ := hbefore
  obtain ⟨post, hpost⟩ := hafter
  refine ⟨pre, post, fun ls hls => ?_⟩
  rw [List.append_assoc, hpre _ (by simp [hls]), hpost ls hls, List.append_assoc]

namespace Node

/-- **Every context is a fixed frame around the text of what stands in it**, moved to the right by
the blocks around the hole. Models with the same text can be exchanged for each other, and for their
text itself. -/
theorem render_plug (s : Settings) (C : Context) :
    (∃ pre post : Text, ∀ x : Node, x.render s ≠ [] →
      (C.plug x).render s = pre ++ Text.indent C.blocks (x.render s) ++ post)
    ∧ (∀ x y : Node, x.render s = y.render s → (C.plug x).render s = (C.plug y).render s)
    ∧ ∀ x : Node, (C.plug (.literal (x.render s))).render s = (C.plug x).render s := by
  refine ⟨?_, fun x y h => render_plug_congr s C h, fun x => render_plug_congr s C rfl⟩
  obtain ⟨as, bs, hlines⟩ := lines_plug (isPrinter_lines s) C
  obtain ⟨pre, post, hjoin⟩ := exists_join_surrounded (as.map Line.toText) (bs.map Line.toText)
  refine ⟨pre, post, fun x hx => ?_⟩
  have hinked := isInked_lines s hx
  have hwhole : Text.split ((C.plug x).render s) = ((C.plug x).lines s).map Line.toText :=
    prints_render s (C.plug x)
  have hpart : Text.split (x.render s) = (x.lines s).map Line.toText := prints_render s x
  have hmoved : ((x.lines s).map (Line.deeper C.blocks)).map Line.toText
      = (Text.split (x.render s)).map (Text.indentLine C.blocks) := by
    rw [hpart, List.map_map, List.map_map]
    exact List.map_congr_left fun l _ => l.toText_deeper C.blocks
  calc (C.plug x).render s
      = Text.join (as.map Line.toText
          ++ (Text.split (x.render s)).map (Text.indentLine C.blocks) ++ bs.map Line.toText) := by
        rw [← Text.join_split ((C.plug x).render s), hwhole, hlines x hinked, List.map_append,
          List.map_append, hmoved]
    _ = pre ++ Text.indent C.blocks (x.render s) ++ post :=
        hjoin _ (by simp [Text.split_ne_nil])

/-- Two blocks around a text with an empty line in it, and a list that adds another text. -/
theorem render_plug_of_empty_line :
    let C : Context := [.differenceOf [.literal "c();".toList],
      .list [.literal "a();".toList] [], .transform (.scale ⟨.zero, .zero, .zero⟩)]
    let x : Node := .literal "b();\n\n".toList
    x.render {} ≠ [] ∧ C.blocks = 2
      ∧ Text.indent 2 (x.render {}) = "        b();\n\n".toList
      ∧ (∃ pre post, (C.plug x).render {} = pre ++ Text.indent 2 (x.render {}) ++ post)
      ∧ (C.plug (.literal (x.render {}))).render {} = (C.plug x).render {} := by
  intro C x
  have htext : x.render {} ≠ [] := by decide
  obtain ⟨⟨pre, post, hframe⟩, -, hliteral⟩ := render_plug {} C
  exact ⟨htext, rfl, by decide, ⟨pre, post, hframe x htext⟩, hliteral x⟩

end Node

end SolidScript
