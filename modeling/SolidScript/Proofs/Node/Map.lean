import Mathlib.Algebra.Ring.Nat
import SolidScript.Proofs.Node
import SolidScript.Proofs.PointIndex

/-!
# Other numbers and files

`Node.map` changes the numbers and the files of a model and nothing else: the parts are the parts of
the model, changed one by one (`Node.parts_map`), and there are as many of them. As far as the
numbers keep their keys, the corners of a polyhedron keep their positions (`indexFaces_map`).
-/

namespace SolidScript

section Values

variable (f : Binary64 → Binary64)

def Vec3.map (v : Vec3) : Vec3 := ⟨f v.x, f v.y, f v.z⟩

def Rgba.map (c : Rgba) : Rgba := ⟨f c.r, f c.g, f c.b, f c.a⟩

def Point.map (p : Point) : Point := ⟨f p.x, f p.y, f p.z⟩

def Face.map (face : Face) : Face := ⟨face.points.map (Point.map f)⟩

def TransformOp.map : TransformOp → TransformOp
  | .scale v => .scale (v.map f)
  | .resize v => .resize (v.map f)
  | .rotate v => .rotate (v.map f)
  | .translate v => .translate (v.map f)
  | .mirror v => .mirror (v.map f)
  | .color c => .color (c.map f)

theorem Face.numbers_map (face : Face) : (face.map f).numbers = face.numbers.map f := by
  rw [Face.numbers, Face.numbers, List.map_flatMap, Face.map, List.flatMap_map]
  rfl

theorem TransformOp.params_map (op : TransformOp) : (op.map f).params = op.params.map f := by
  cases op <;> rfl

variable {f}

theorem Vec3.map_eq_self {v : Vec3} (h : ∀ x ∈ v.numbers, f x = x) : v.map f = v := by
  rw [Vec3.numbers] at h
  rw [Vec3.map, h v.x (by simp), h v.y (by simp), h v.z (by simp)]

theorem Point.map_eq_self {p : Point} (h : ∀ x ∈ p.numbers, f x = x) : p.map f = p := by
  rw [Point.numbers] at h
  rw [Point.map, h p.x (by simp), h p.y (by simp), h p.z (by simp)]

/-- A list whose items are left alone is left alone. -/
theorem map_eq_self {α : Type} {g : α → α} {as : List α} (h : ∀ a ∈ as, g a = a) :
    as.map g = as := (List.map_congr_left h).trans (List.map_id as)

theorem Face.map_eq_self {face : Face} (h : ∀ x ∈ face.numbers, f x = x) : face.map f = face := by
  rw [Face.numbers, List.forall_mem_flatMap] at h
  rw [Face.map, SolidScript.map_eq_self fun p hp => Point.map_eq_self (h p hp)]

theorem TransformOp.map_eq_self {op : TransformOp} (h : ∀ x ∈ op.params, f x = x) :
    op.map f = op := by
  cases op with
  | color c =>
    rw [params] at h
    rw [map, Rgba.map, h c.r (by simp), h c.g (by simp), h c.b (by simp), h c.a (by simp)]
  | scale v => exact congrArg scale (Vec3.map_eq_self h)
  | resize v => exact congrArg resize (Vec3.map_eq_self h)
  | rotate v => exact congrArg rotate (Vec3.map_eq_self h)
  | translate v => exact congrArg translate (Vec3.map_eq_self h)
  | mirror v => exact congrArg mirror (Vec3.map_eq_self h)

end Values

namespace Node

section Map

variable (f : Binary64 → Binary64) (g : Path → Path)

mutual

/-- The model with every number and every file changed. -/
def map : Node → Node
  | .literal t => .literal t
  | .list cs => .list (mapAll cs)
  | .cube size center => .cube (size.map f) center
  | .sphere r => .sphere (f r)
  | .cylinder h rTop rBottom center => .cylinder (f h) (f rTop) (f rBottom) center
  | .polyhedron faces => .polyhedron (faces.map (Face.map f))
  | .union cs => .union (mapAll cs)
  | .difference parent cs => .difference (map parent) (mapAll cs)
  | .intersection cs => .intersection (mapAll cs)
  | .transform op content => .transform (op.map f) (map content)
  | .mesh file => .mesh (g file)

/-- Several models with every number and every file changed. -/
def mapAll : List Node → List Node
  | [] => []
  | c :: cs => map c :: mapAll cs

end

theorem mapAll_eq_map (cs : List Node) : mapAll f g cs = cs.map (map f g) := by
  induction cs with
  | nil => rfl
  | cons c cs ih => rw [mapAll, ih, List.map_cons]

theorem children_map (m : Node) : (m.map f g).children = m.children.map (map f g) := by
  cases m with
  | list cs => exact mapAll_eq_map f g cs
  | union cs => exact mapAll_eq_map f g cs
  | intersection cs => exact mapAll_eq_map f g cs
  | difference parent cs => exact congrArg (parent.map f g :: ·) (mapAll_eq_map f g cs)
  | _ => rfl

theorem parts_map (m : Node) : (m.map f g).parts = m.parts.map (map f g) := by
  induction m using induction with
  | step m ih =>
    rw [parts_eq, parts_eq, children_map, List.map_cons, List.flatMap_map, List.map_flatMap]
    exact congrArg _ (List.flatMap_congr ih)

theorem ownNumbers_map (m : Node) : (m.map f g).ownNumbers = m.ownNumbers.map f := by
  cases m with
  | polyhedron faces =>
    rw [map, ownNumbers, ownNumbers, List.flatMap_map, List.map_flatMap]
    exact List.flatMap_congr fun face _ => face.numbers_map f
  | transform op content => exact op.params_map f
  | _ => rfl

theorem numbers_map (m : Node) : (m.map f g).numbers = m.numbers.map f := by
  rw [numbers, numbers, parts_map, List.flatMap_map, List.map_flatMap]
  exact List.flatMap_congr fun t _ => ownNumbers_map f g t

theorem polyhedra_map (m : Node) :
    (m.map f g).polyhedra = m.polyhedra.map (List.map (Face.map f)) := by
  rw [polyhedra, polyhedra, parts_map, List.filterMap_map, List.map_filterMap]
  refine List.filterMap_congr fun t _ => ?_
  cases t <;> rfl

end Map

theorem countAll_eq (cs : List Node) : countAll cs = (cs.map count).sum := by
  induction cs with
  | nil => rfl
  | cons c cs ih => rw [countAll, ih, List.map_cons, List.sum_cons]

/-- The nodes of a model are the node itself and those of the models directly below it. -/
theorem count_eq (m : Node) : m.count = 1 + (m.children.map count).sum := by
  cases m with
  | list cs => rw [count, countAll_eq, children]
  | union cs => rw [count, countAll_eq, children]
  | intersection cs => rw [count, countAll_eq, children]
  | difference parent cs => rw [count, countAll_eq, children, List.map_cons, List.sum_cons]
  | transform op content => rw [count, children, List.map_singleton, List.sum_singleton]
  | _ => rfl

variable {f : Binary64 → Binary64} {g : Path → Path}

theorem count_map (m : Node) : (m.map f g).count = m.count := by
  induction m using induction with
  | step m ih =>
    rw [count_eq, count_eq, children_map, List.map_map]
    exact congrArg (1 + ·.sum) (List.map_congr_left ih)

/-- A model whose numbers and files are left alone is left alone. -/
theorem map_eq_self_of_forall {m : Node} (hf : ∀ x ∈ m.numbers, f x = x)
    (hg : ∀ p ∈ m.files, g p = p) : m.map f g = m := by
  induction m using induction with
  | step m ih =>
    rw [numbers_eq, List.forall_mem_append, List.forall_mem_flatMap] at hf
    rw [files_eq, List.forall_mem_append, List.forall_mem_flatMap] at hg
    have hchildren : ∀ c ∈ m.children, c.map f g = c := fun c hc => ih c hc (hf.2 c hc) (hg.2 c hc)
    have hall {cs : List Node} (h : ∀ c ∈ cs, c ∈ m.children) : mapAll f g cs = cs := by
      rw [mapAll_eq_map]
      exact map_eq_self fun c hc => hchildren c (h c hc)
    cases m with
    | literal t => rfl
    | list cs => exact congrArg list (hall fun _ => id)
    | union cs => exact congrArg union (hall fun _ => id)
    | intersection cs => exact congrArg intersection (hall fun _ => id)
    | difference parent cs =>
      rw [map, hchildren parent List.mem_cons_self, hall fun _ => List.mem_cons_of_mem parent]
    | transform op content =>
      rw [map, TransformOp.map_eq_self hf.1, List.forall_mem_singleton.mp hchildren]
    | cube size center => rw [map, Vec3.map_eq_self hf.1]
    | sphere r => rw [map, hf.1 r List.mem_cons_self]
    | cylinder h rTop rBottom center =>
      have hown : ∀ x ∈ [h, rTop, rBottom], f x = x := hf.1
      rw [map, hown h (by simp), hown rTop (by simp), hown rBottom (by simp)]
    | polyhedron faces =>
      have hfaces := List.forall_mem_flatMap.mp hf.1
      rw [map, map_eq_self fun face hface => Face.map_eq_self (hfaces face hface)]
    | mesh file => rw [map, hg.1 file List.mem_cons_self]

end Node

/-! ## Positions of corners -/

section Positions

variable {f : Binary64 → Binary64} (hf : ∀ x, (f x).key = x.key)

include hf

theorem Point.key_map (p : Point) : (p.map f).key = p.key := by
  rw [key, key, map, hf, hf, hf]

namespace PointIndex

omit hf in
/-- The index with other numbers at the same positions. -/
def map (f : Binary64 → Binary64) (index : PointIndex) : PointIndex :=
  ⟨index.points.map (Point.map f), index.lookup⟩

theorem insert_map (index : PointIndex) (p : Point) :
    (index.map f).insert (p.map f) = ((index.insert p).1, (index.insert p).2.map f) := by
  have hget : (index.map f).get? (p.map f) = index.get? p := by
    rw [get?, Point.key_map hf]
    rfl
  have hsize : (index.map f).size = index.size := Array.size_map
  rw [insert, insert, hget, hsize, Point.key_map hf]
  cases index.get? p with
  | some i => rfl
  | none => simp [map]

theorem insertAll_map (index : PointIndex) (ps : List Point) :
    (index.map f).insertAll (ps.map (Point.map f))
      = ((index.insertAll ps).1, (index.insertAll ps).2.map f) := by
  induction ps generalizing index with
  | nil => rfl
  | cons p ps ih => rw [List.map_cons, insertAll_cons, insert_map hf, ih, insertAll_cons]

theorem insertFaces_map (index : PointIndex) (faces : List Face) :
    (index.map f).insertFaces (faces.map (Face.map f))
      = ((index.insertFaces faces).1, (index.insertFaces faces).2.map f) := by
  induction faces generalizing index with
  | nil => rfl
  | cons face faces ih =>
    rw [List.map_cons, insertFaces_cons, Face.map, insertAll_map hf, ih, insertFaces_cons]

end PointIndex

/-- Numbers that keep their keys are written in the same places. -/
theorem indexFaces_map (faces : List Face) : indexFaces (faces.map (Face.map f))
    = ⟨(indexFaces faces).points.map (Point.map f), (indexFaces faces).faces⟩ := by
  have h := PointIndex.insertFaces_map hf .empty faces
  have hempty : PointIndex.empty.map f = PointIndex.empty := by
    rw [PointIndex.map, PointIndex.empty, Array.map_empty]
  rw [hempty] at h
  rw [indexFaces_eq, h, indexFaces_eq, PointIndex.map, Array.toList_map]

end Positions

end SolidScript
