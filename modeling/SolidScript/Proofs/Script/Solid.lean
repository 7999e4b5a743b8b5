import Mathlib.Data.Set.Lattice
import SolidScript.Proofs.Script.Unambiguous

/-!
# The solid of a script

A model stands for a set of points, and so does a script. An `Interpretation` says which points a
body has and what a transformation does to them; the rest is fixed. In a model, `parent` is what the
others are taken away from and the models directly below an intersection are what it intersects. In
a script these roles fall to statements: the first one of a block, and each one of a block.

A model below may write no statement or several ones, so the two readings need not agree.
`agrees_iff` says of every kind of node when they do, and `ofText_render_iff` says it of a whole
model: they agree on all of its parts if and only if `Interpretation.Keeps` holds of all of them.
-/

namespace SolidScript

variable {P : Type*}

/-- The points of any of the solids. -/
def united (xs : List (Set P)) : Set P := {p | ∃ x ∈ xs, p ∈ x}

/-- The points that all of the solids have. There are none if there is no solid. -/
def common (xs : List (Set P)) : Set P := {p | xs ≠ [] ∧ ∀ x ∈ xs, p ∈ x}

/-- The first solid without all later ones. -/
def remaining : List (Set P) → Set P
  | [] => ∅
  | x :: xs => x \ united xs

/-- What the words of a script stand for. -/
structure Interpretation (P : Type*) where
  /-- The points of the body that a call stands for. -/
  body : Text → Set P
  /-- What the head of a block does to what stands inside. -/
  move : Text → Set P → Set P

namespace Interpretation

variable (I : Interpretation P)

/-- What a block makes of the solids of its statements. -/
def block (head : Text) (xs : List (Set P)) : Set P :=
  if head = "difference()".toList then remaining xs
  else if head = "intersection()".toList then common xs
  else if head = "union()".toList then united xs
  else I.move head (united xs)

mutual

def ofStatement : Statement Text Text → Set P
  | .leaf body => I.body body
  | .block head inside => I.block head (ofStatements inside)

def ofStatements : List (Statement Text Text) → List (Set P)
  | [] => []
  | t :: ts => ofStatement t :: ofStatements ts

end

/-- What a script stands for: its statements side by side. -/
def ofText (t : Text) : Option (Set P) :=
  (Script.read t).map fun ss => united (I.ofStatements ss)

variable (s : Settings)

mutual

/-- What a model stands for. -/
def ofNode : Node → Set P
  | .literal _ => ∅
  | .list cs | .union cs => united (ofNodes cs)
  | .cube size center =>
    I.body (Leaf.call s (.cube [size.x.amount, size.y.amount, size.z.amount] center))
  | .sphere r => I.body (Leaf.call s (.sphere r.amount))
  | .cylinder h rTop rBottom center =>
    I.body (Leaf.call s (.cylinder h.amount rBottom.amount rTop.amount center))
  | .polyhedron faces => I.body (Leaf.call s (indexFaces faces).leaf)
  | .difference parent cs => ofNode parent \ united (ofNodes cs)
  | .intersection cs => common (ofNodes cs)
  | .transform op content => I.move op.head.call (ofNode content)
  | .mesh file => I.body (Leaf.call s (.mesh file.display))

def ofNodes : List Node → List (Set P)
  | [] => []
  | c :: cs => ofNode c :: ofNodes cs

end

/-- The solids of the statements that a model writes. -/
def written (m : Node) : List (Set P) := I.ofStatements (callAll s m.forest)

theorem ofStatements_append (ss ts : List (Statement Text Text)) :
    I.ofStatements (ss ++ ts) = I.ofStatements ss ++ I.ofStatements ts := by
  induction ss with
  | nil => rfl
  | cons t ss ih => rw [List.cons_append, ofStatements, ofStatements, ih, List.cons_append]

theorem ofNodes_eq_map (cs : List Node) : I.ofNodes s cs = cs.map (I.ofNode s) := by
  induction cs with
  | nil => rfl
  | cons c cs ih => rw [ofNodes, ih, List.map_cons]

/-- Models side by side write the statements of one after those of the other. -/
theorem ofStatements_forestAll (cs : List Node) :
    I.ofStatements (callAll s (Node.forestAll cs)) = (cs.map (I.written s)).flatten := by
  induction cs with
  | nil => rfl
  | cons c cs ih =>
    rw [Node.forestAll, callAll_append, ofStatements_append, ih, List.map_cons,
      List.flatten_cons, written]

/-- A script stands for what its statements stand for. -/
theorem ofText_render {m : Node} (hm : m.isLiteralFree = true) :
    I.ofText (m.render s) = some (united (I.written s m)) := by
  rw [ofText, Script.read_of_spells (Script.spells_render s m hm), Option.map_some, written]

end Interpretation

/-! ## Sets of points -/

@[simp] theorem united_nil : united ([] : List (Set P)) = ∅ := by
  ext p
  simp [united]

@[simp] theorem united_singleton (x : Set P) : united [x] = x := by
  ext p
  simp [united]

theorem united_append (xs ys : List (Set P)) : united (xs ++ ys) = united xs ∪ united ys := by
  ext p
  simp [united, or_and_right, exists_or]

theorem united_cons (x : Set P) (xs : List (Set P)) : united (x :: xs) = x ∪ united xs := by
  ext p
  simp [united]

theorem united_flatten (xss : List (List (Set P))) :
    united xss.flatten = united (xss.map united) := by
  induction xss with
  | nil => rfl
  | cons xs xss ih => rw [List.flatten_cons, united_append, ih, List.map_cons, united_cons]

/-- `ws` is what a parent writes and `rs` what is taken away from it. The block is the whole parent
without the rest if all that the parent writes behind its first statement is taken away anyway; and
if it writes nothing, so that something else comes first, nothing may remain. -/
def ParentFirst (ws rs : List (Set P)) : Prop :=
  match ws with
  | [] => remaining rs = ∅
  | _ :: later => united later ⊆ united rs

theorem remaining_append_eq_iff (ws rs : List (Set P)) :
    remaining (ws ++ rs) = united ws \ united rs ↔ ParentFirst ws rs := by
  cases ws with
  | nil => simp [ParentFirst]
  | cons w later =>
    rw [ParentFirst, List.cons_append, remaining, united_append, united_cons]
    constructor
    · intro h p hp
      -- a later point of the parent that is not taken away is in the model only
      by_contra hrest
      have hmodel : p ∈ (w ∪ united later) \ united rs := ⟨Or.inr hp, hrest⟩
      rw [← h] at hmodel
      exact hmodel.2 (Or.inl hp)
    · intro h
      rw [Set.union_eq_right.mpr h, Set.union_sdiff_distrib, Set.sdiff_eq_empty.mpr h,
        Set.union_empty]

/-- `xss` is what the models below an intersection write. Each statement has to hold the whole
intersection; and if one of the models writes nothing, the statements of the others may have nothing
in common. -/
def EachWhole (xss : List (List (Set P))) : Prop :=
  ([] ∈ xss → common xss.flatten = ∅)
    ∧ ([] ∉ xss → ∀ xs ∈ xss, ∀ x ∈ xs, common (xss.map united) ⊆ x)

theorem common_flatten_eq_iff (xss : List (List (Set P))) :
    common xss.flatten = common (xss.map united) ↔ EachWhole xss := by
  by_cases hnil : [] ∈ xss
  · -- a model that writes nothing stands for no points
    have hempty : common (xss.map united) = ∅ := by
      ext p
      simp only [Set.mem_empty_iff_false, iff_false]
      rintro ⟨-, hall⟩
      simpa using hall (united []) (List.mem_map_of_mem hnil)
    rw [EachWhole, hempty]
    exact ⟨fun h => ⟨fun _ => h, fun hnot => absurd hnil hnot⟩, fun h => h.1 hnil⟩
  · have hne {xs : List (Set P)} (hxs : xs ∈ xss) : xs ≠ [] := fun h => hnil (h ▸ hxs)
    have hflat {xs : List (Set P)} {x : Set P} (hxs : xs ∈ xss) (hx : x ∈ xs) :
        x ∈ xss.flatten := List.mem_flatten.mpr ⟨xs, hxs, hx⟩
    constructor
    · intro h
      refine ⟨fun hin => absurd hin hnil, fun _ xs hxs x hx p hp => ?_⟩
      rw [← h] at hp
      exact hp.2 x (hflat hxs hx)
    · rintro ⟨-, hwhole⟩
      ext p
      constructor
      · rintro ⟨hflatten, hall⟩
        refine ⟨fun h => hflatten ?_, fun y hy => ?_⟩
        · rw [List.map_eq_nil_iff.mp h, List.flatten_nil]
        · obtain ⟨xs, hxs, rfl⟩ := List.mem_map.mp hy
          obtain ⟨x, hx⟩ := List.exists_mem_of_ne_nil xs (hne hxs)
          exact ⟨x, hx, hall x (hflat hxs hx)⟩
      · intro hp
        refine ⟨fun h => ?_, fun x hx => ?_⟩
        · -- without statements there would be no models
          obtain ⟨xs, hxs⟩ := List.exists_mem_of_ne_nil xss fun h => hp.1 (by rw [h, List.map_nil])
          exact hne hxs (List.flatten_eq_nil_iff.mp h xs hxs)
        · obtain ⟨xs, hxs, hx⟩ := List.mem_flatten.mp hx
          exact hwhole hnil xs hxs x hx hp

/-! ## Where the two readings agree -/

namespace Interpretation

variable (I : Interpretation P) (s : Settings)

/-- The script of the model keeps the role of its parent, or of what it intersects. -/
def Keeps : Node → Prop
  | .difference parent cs => ParentFirst (I.written s parent) (cs.map (I.written s)).flatten
  | .intersection cs => EachWhole (cs.map (I.written s))
  | _ => True

theorem block_transform (op : TransformOp) (xs : List (Set P)) :
    I.block op.head.call xs = I.move op.head.call (united xs) := by
  have hne {h : Head} (hh : h ≠ op.head) : op.head.call ≠ h.call := fun hcall =>
    hh (Head.call_injective hcall).symm
  have hdifference : op.head.call ≠ "difference()".toList := hne (h := .difference) nofun
  have hintersection : op.head.call ≠ "intersection()".toList := hne (h := .intersection) nofun
  have hunion : op.head.call ≠ "union()".toList := hne (h := .union) nofun
  rw [block, if_neg hdifference, if_neg hintersection, if_neg hunion]

theorem written_list (cs : List Node) :
    I.written s (.list cs) = (cs.map (I.written s)).flatten := I.ofStatements_forestAll s cs

theorem written_union (cs : List Node) :
    I.written s (.union cs) = [united (cs.map (I.written s)).flatten] := by
  rw [← ofStatements_forestAll]
  rfl

theorem written_difference (parent : Node) (cs : List Node) :
    I.written s (.difference parent cs)
      = [remaining (I.written s parent ++ (cs.map (I.written s)).flatten)] := by
  have hinside : I.ofStatements (callAll s (parent.forest ++ Node.forestAll cs))
      = I.written s parent ++ (cs.map (I.written s)).flatten := by
    rw [callAll_append, ofStatements_append, ofStatements_forestAll, written]
  rw [← hinside]
  rfl

theorem written_intersection (cs : List Node) :
    I.written s (.intersection cs) = [common (cs.map (I.written s)).flatten] := by
  rw [← ofStatements_forestAll]
  rfl

theorem written_transform (op : TransformOp) (content : Node) :
    I.written s (.transform op content)
      = [I.move op.head.call (united (I.written s content))] := by
  rw [← block_transform]
  rfl

/-- If the two readings agree below a model, then they agree on the model if and only if the script
keeps the roles of what is below. -/
theorem agrees_iff {m : Node} (h : ∀ c ∈ m.children, united (I.written s c) = I.ofNode s c) :
    united (I.written s m) = I.ofNode s m ↔ I.Keeps s m := by
  have hall (cs : List Node) (h : ∀ c ∈ cs, united (I.written s c) = I.ofNode s c) :
      I.ofNodes s cs = (cs.map (I.written s)).map united := by
    rw [List.map_map, ofNodes_eq_map]
    exact (List.map_congr_left h).symm
  cases m with
  | list cs =>
    rw [written_list, united_flatten, ofNode, hall cs h]
    exact iff_of_true rfl trivial
  | union cs =>
    rw [written_union, united_singleton, united_flatten, ofNode, hall cs h]
    exact iff_of_true rfl trivial
  | difference parent cs =>
    obtain ⟨hparent, hrest⟩ := List.forall_mem_cons.mp h
    rw [written_difference, united_singleton, ofNode, ← hparent, hall cs hrest, ← united_flatten]
    exact remaining_append_eq_iff _ _
  | intersection cs =>
    rw [written_intersection, united_singleton, ofNode, hall cs h]
    exact common_flatten_eq_iff _
  | transform op content =>
    rw [written_transform, united_singleton, ofNode, List.forall_mem_singleton.mp h]
    exact iff_of_true rfl trivial
  | literal text => exact iff_of_true united_nil trivial
  | _ => exact iff_of_true (united_singleton _) trivial

/-- The two readings agree on all parts of a model if and only if its script keeps the roles in all
of its parts. -/
theorem agrees_parts_iff (m : Node) :
    (∀ t ∈ m.parts, united (I.written s t) = I.ofNode s t)
      ↔ ∀ t ∈ m.parts, I.Keeps s t := by
  induction m using Node.induction with
  | step m ih =>
    have hbelow : (∀ c ∈ m.children, ∀ t ∈ c.parts, united (I.written s t) = I.ofNode s t)
        ↔ ∀ c ∈ m.children, ∀ t ∈ c.parts, I.Keeps s t := forall₂_congr ih
    rw [Node.forall_mem_parts_iff, Node.forall_mem_parts_iff m, hbelow, and_congr_left_iff]
    intro hkeeps
    exact I.agrees_iff s fun c hc => hbelow.mpr hkeeps c hc c c.mem_parts_self

end Interpretation

/-! ## Models that write one statement for each -/

namespace Node

/-- A parent writes one statement, and so does each of the models that an intersection
intersects. -/
def IsGrouped : Node → Prop
  | .difference parent _ => parent.forest.length = 1
  | .intersection cs => ∀ c ∈ cs, c.forest.length = 1
  | _ => True

end Node

namespace Interpretation

variable (I : Interpretation P) (s : Settings)

theorem length_written (m : Node) : (I.written s m).length = m.forest.length := by
  have hlength (ss : List (Statement Text Text)) : (I.ofStatements ss).length = ss.length := by
    induction ss with
    | nil => rfl
    | cons t ss ih => rw [ofStatements, List.length_cons, ih, List.length_cons]
  rw [written, hlength, callAll, Statement.mapAll_eq_map, List.length_map]

theorem keeps_of_isGrouped {m : Node} (h : m.IsGrouped) : I.Keeps s m := by
  have hone {c : Node} (hc : c.forest.length = 1) : ∃ x, I.written s c = [x] :=
    List.length_eq_one_iff.mp (by rw [length_written, hc])
  cases m with
  | difference parent cs =>
    obtain ⟨x, hx⟩ := hone h
    rw [Keeps, hx]
    exact fun p hp => absurd hp (by simp)
  | intersection cs =>
    rw [Keeps]
    constructor
    · intro hnil
      obtain ⟨c, hc, hwritten⟩ := List.mem_map.mp hnil
      obtain ⟨x, hx⟩ := hone (h c hc)
      rw [hx] at hwritten
      cases hwritten
    · rintro - xs hxs x hx p hp
      obtain ⟨c, hc, rfl⟩ := List.mem_map.mp hxs
      obtain ⟨y, hy⟩ := hone (h c hc)
      obtain rfl : x = y := by simpa [hy] using hx
      have hmem := hp.2 (united (I.written s c))
        (List.mem_map_of_mem (List.mem_map_of_mem hc))
      rwa [hy, united_singleton] at hmem
  | _ => trivial

/-- A model that is grouped everywhere has a script that stands for its solid, whatever its words
stand for. -/
theorem ofText_render_of_isGrouped {m : Node} (hm : m.isLiteralFree = true)
    (h : ∀ t ∈ m.parts, t.IsGrouped) :
    I.ofText (m.render s) = some (I.ofNode s m) := by
  rw [ofText_render I s hm]
  have hagrees := (I.agrees_parts_iff s m).mpr fun t ht => I.keeps_of_isGrouped s (h t ht)
  rw [hagrees m m.mem_parts_self]

/-! ## Scripts and models -/

/-- **A script stands for the solid of its model** in all parts of the model, if and only if it
keeps the roles in all of them: what a parent writes behind its first statement is taken away from
it anyway, a parent that writes nothing leaves nothing to remain, and every statement below an
intersection holds the whole intersection. -/
theorem ofText_render_iff {m : Node} (hm : m.isLiteralFree = true) :
    (∀ t ∈ m.parts, I.ofText (t.render s) = some (I.ofNode s t))
      ↔ ∀ t ∈ m.parts, I.Keeps s t := by
  rw [← agrees_parts_iff]
  refine forall₂_congr fun t ht => ?_
  rw [ofText_render I s (Node.isLiteralFree_of_mem_parts hm t ht), Option.some_inj]

/-- With a union around them, several models are one parent. -/
theorem ofText_render_of_union_parent :
    let one : Binary64 := ⟨0x3FF0000000000000⟩
    let m : Node := .difference (.union [.cube ⟨one, one, one⟩ false, .sphere one])
      [.list [.sphere one, .list []]]
    let I : Interpretation Text := ⟨fun call => {call}, fun head x => (head ++ ·) '' x⟩
    m.isLiteralFree = true
      ∧ ∀ t ∈ m.parts, I.ofText (t.render {}) = some (I.ofNode {} t) := by
  intro one m I
  have hkeeps : ∀ t ∈ m.parts, t.IsGrouped := by
    simp [m, Node.parts, Node.partsAll, Node.IsGrouped, Node.forest]
  exact ⟨rfl, (ofText_render_iff I {} rfl).mpr fun t ht => keeps_of_isGrouped I {} (hkeeps t ht)⟩

/-- A list as a parent loses its second model: read as a script, the sphere is taken away from the
cube, as is the cylinder. -/
theorem ofText_render_ne_ofNode :
    let one : Binary64 := ⟨0x3FF0000000000000⟩
    let two : Binary64 := ⟨0x4000000000000000⟩
    let m : Node := .difference (.list [.cube ⟨one, one, one⟩ false, .sphere one])
      [.cylinder two one one false]
    m.isLiteralFree = true
      ∧ ∃ I : Interpretation Unit, I.ofText (m.render {}) ≠ some (I.ofNode {} m) := by
  intro one two m
  -- the sphere is everything, and there is nothing else
  let I : Interpretation Unit :=
    ⟨fun t => {_p | t = Leaf.call {} (.sphere one.amount)}, fun _ x => x⟩
  have hmodel : () ∈ I.ofNode {} m := by
    refine ⟨⟨_, List.mem_cons_of_mem _ (List.mem_singleton_self _), rfl⟩, ?_⟩
    rintro ⟨x, hx, hp⟩
    rw [List.mem_singleton.mp hx] at hp
    cases Leaf.call_injective {} hp
  have hscript : () ∉ united (I.written {} m) := by
    rw [written_difference, united_singleton]
    intro hp
    cases Leaf.call_injective {} hp.1
  refine ⟨rfl, I, ?_⟩
  rw [ofText_render I {} rfl, Ne, Option.some_inj]
  intro h
  rw [h] at hscript
  exact hscript hmodel

end Interpretation

end SolidScript
