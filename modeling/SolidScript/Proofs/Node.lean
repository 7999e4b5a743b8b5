import SolidScript.Node

/-!
# Parts of a model

What holds of a model as soon as it holds of the models directly below it holds of every model
(`Node.induction`). The parts of a model are the model itself and the parts of the models directly
below it (`Node.parts_eq`). Models without raw text are the ones a script tells everything about;
every part of such a model is without raw text as well. What stands in a model is what stands in its
parts: its numbers, its files and its polyhedra.
-/

namespace SolidScript.Node

mutual

/-- What passes from the models directly below to the model above holds of all models. -/
theorem induction {motive : Node → Prop}
    (step : ∀ m : Node, (∀ c ∈ m.children, motive c) → motive m) : ∀ m : Node, motive m
  | .list cs => step _ (inductionAll step cs)
  | .union cs => step _ (inductionAll step cs)
  | .intersection cs => step _ (inductionAll step cs)
  | .difference parent cs =>
    step _ (List.forall_mem_cons.mpr ⟨induction step parent, inductionAll step cs⟩)
  | .transform _ content => step _ (List.forall_mem_singleton.mpr (induction step content))
  | .literal _ | .cube _ _ | .sphere _ | .cylinder _ _ _ _ | .polyhedron _ | .mesh _ =>
    step _ fun _ h => nomatch h

theorem inductionAll {motive : Node → Prop}
    (step : ∀ m : Node, (∀ c ∈ m.children, motive c) → motive m) :
    ∀ cs : List Node, ∀ c ∈ cs, motive c
  | [] => fun _ h => nomatch h
  | c :: cs => List.forall_mem_cons.mpr ⟨induction step c, inductionAll step cs⟩

end

/-! ## Parts -/

mutual

/-- The model and everything below it, from the outside in. -/
def parts : Node → List Node
  | .list cs => .list cs :: partsAll cs
  | .union cs => .union cs :: partsAll cs
  | .intersection cs => .intersection cs :: partsAll cs
  | .difference parent cs => .difference parent cs :: (parent.parts ++ partsAll cs)
  | .transform op content => .transform op content :: content.parts
  | m => [m]

/-- The parts of several models. -/
def partsAll : List Node → List Node
  | [] => []
  | c :: cs => c.parts ++ partsAll cs

end

theorem partsAll_eq_flatMap (cs : List Node) : partsAll cs = cs.flatMap parts := by
  induction cs with
  | nil => rfl
  | cons c cs ih => rw [partsAll, ih, List.flatMap_cons]

/-- The parts of a model are the model and the parts of the models directly below it. -/
theorem parts_eq (m : Node) : m.parts = m :: m.children.flatMap parts := by
  cases m with
  | list cs => rw [parts, partsAll_eq_flatMap, children]
  | union cs => rw [parts, partsAll_eq_flatMap, children]
  | intersection cs => rw [parts, partsAll_eq_flatMap, children]
  | difference parent cs => rw [parts, partsAll_eq_flatMap, children, List.flatMap_cons]
  | transform op content => rw [parts, children, List.flatMap_singleton]
  | _ => rfl

theorem mem_parts_self (m : Node) : m ∈ m.parts := by
  rw [parts_eq]
  exact List.mem_cons_self

theorem forall_mem_parts_iff {p : Node → Prop} (m : Node) :
    (∀ t ∈ m.parts, p t) ↔ p m ∧ ∀ c ∈ m.children, ∀ t ∈ c.parts, p t := by
  rw [parts_eq, List.forall_mem_cons, List.forall_mem_flatMap]

/-! ## Raw text -/

mutual

/-- There is no raw text in the model. -/
def isLiteralFree : Node → Bool
  | .literal _ => false
  | .list cs | .union cs | .intersection cs => areLiteralFree cs
  | .difference parent cs => parent.isLiteralFree && areLiteralFree cs
  | .transform _ content => content.isLiteralFree
  | .cube _ _ | .sphere _ | .cylinder _ _ _ _ | .polyhedron _ | .mesh _ => true

/-- There is no raw text in any of the models. -/
def areLiteralFree : List Node → Bool
  | [] => true
  | c :: cs => c.isLiteralFree && areLiteralFree cs

end

theorem isLiteralFree_of_mem {cs : List Node} (h : areLiteralFree cs = true) {c : Node}
    (hc : c ∈ cs) : c.isLiteralFree = true := by
  induction cs with
  | nil => cases hc
  | cons d ds ih =>
    rw [areLiteralFree, Bool.and_eq_true] at h
    rcases List.mem_cons.mp hc with rfl | hc
    · exact h.1
    · exact ih h.2 hc

theorem isLiteralFree_of_mem_children {m c : Node} (h : m.isLiteralFree = true)
    (hc : c ∈ m.children) : c.isLiteralFree = true := by
  cases m with
  | list cs => exact isLiteralFree_of_mem h hc
  | union cs => exact isLiteralFree_of_mem h hc
  | intersection cs => exact isLiteralFree_of_mem h hc
  | difference parent cs =>
    rw [isLiteralFree, Bool.and_eq_true] at h
    rcases List.mem_cons.mp hc with rfl | hc
    · exact h.1
    · exact isLiteralFree_of_mem h.2 hc
  | transform op content =>
    rw [List.mem_singleton.mp hc]
    exact h
  | _ => cases hc

theorem isLiteralFree_of_mem_parts {m : Node} (h : m.isLiteralFree = true) :
    ∀ t ∈ m.parts, t.isLiteralFree = true := by
  induction m using induction with
  | step m ih =>
    rw [forall_mem_parts_iff]
    exact ⟨h, fun c hc => ih c hc (isLiteralFree_of_mem_children h hc)⟩

end SolidScript.Node

namespace SolidScript

/-! ## Numbers -/

def Vec3.numbers (v : Vec3) : List Binary64 := [v.x, v.y, v.z]

def Point.numbers (p : Point) : List Binary64 := [p.x, p.y, p.z]

def Face.numbers (f : Face) : List Binary64 := f.points.flatMap Point.numbers

namespace Node

/-- The numbers that stand in a node itself, not below it. -/
def ownNumbers : Node → List Binary64
  | .cube size _ => size.numbers
  | .sphere r => [r]
  | .cylinder h rTop rBottom _ => [h, rTop, rBottom]
  | .polyhedron faces => faces.flatMap Face.numbers
  | .transform op _ => op.params
  | _ => []

/-- The numbers of a model. -/
def numbers (m : Node) : List Binary64 := m.parts.flatMap ownNumbers

theorem numbers_eq (m : Node) : m.numbers = m.ownNumbers ++ m.children.flatMap numbers := by
  rw [numbers, parts_eq, List.flatMap_cons, List.flatMap_assoc]
  rfl

/-! ## Files and polyhedra -/

/-- The file of a mesh. -/
def file? : Node → Option Path
  | .mesh file => some file
  | _ => none

/-- The files that a model refers to. -/
def files (m : Node) : List Path := m.parts.filterMap file?

theorem files_eq (m : Node) : m.files = m.file?.toList ++ m.children.flatMap files := by
  rw [files, parts_eq, List.filterMap_cons, List.filterMap_flatMap]
  cases m.file? <;> rfl

/-- The faces of a polyhedron. -/
def faces? : Node → Option (List Face)
  | .polyhedron faces => some faces
  | _ => none

/-- The polyhedra of a model, from the outside in. -/
def polyhedra (m : Node) : List (List Face) := m.parts.filterMap faces?

end Node

end SolidScript
