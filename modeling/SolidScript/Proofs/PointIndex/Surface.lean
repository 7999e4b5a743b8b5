import Mathlib.Data.List.Rotate
import Mathlib.Data.Sym.Sym2
import SolidScript.Node.Prism
import SolidScript.Proofs.PointIndex

/-!
# Closed surfaces

Whoever walks around a face runs through edges, each from one corner to the next. Faces are a closed
surface whose sides all face one way if every edge is run through as often back as forth
(`IndexedFaces.IsClosed`). To see this of a prism one need not look at its points: if it holds of
the names of the corners (`IsEven`), it holds of anything the names are replaced with, such as the
positions of points, and be it that several names lead to one position. If all points are different,
so are their positions, and the edges can be counted on the names as well.

The main statement is `closed_prism_hexahedron`.
-/

namespace SolidScript

/-! ## Edges -/

section Edges

variable {α β : Type}

/-- The corners of a face with their successors. The first comes after the last. -/
def around (face : List α) : List (α × α) := face.zip (face.rotate 1)

/-- The edges of several faces, each with its direction. -/
def edges (faces : List (List α)) : List (α × α) := faces.flatMap around

/-- The edges without their direction, each once. -/
def undirected [DecidableEq α] (faces : List (List α)) : Finset (Sym2 α) :=
  ((edges faces).map fun e => s(e.1, e.2)).toFinset

theorem around_map (f : α → β) (face : List α) :
    around (face.map f) = (around face).map (Prod.map f f) := by
  rw [around, ← List.map_rotate, List.zip_map, around]

theorem edges_map (f : α → β) (faces : List (List α)) :
    edges (faces.map (·.map f)) = (edges faces).map (Prod.map f f) := by
  simp only [edges, List.flatMap_map, List.map_flatMap, around_map]

theorem undirected_map [DecidableEq α] [DecidableEq β] (f : α → β) (faces : List (List α)) :
    undirected (faces.map (·.map f)) = (undirected faces).image (Sym2.map f) := by
  ext side
  simp only [undirected, edges_map, List.mem_toFinset, List.mem_map, Finset.mem_image,
    exists_exists_and_eq_and, Prod.map_fst, Prod.map_snd, Sym2.map_mk]

/-- The edges are the same ones if all are run through backwards. -/
def IsEven (faces : List (List α)) : Prop :=
  (edges faces).Perm ((edges faces).map Prod.swap)

instance [DecidableEq α] (faces : List (List α)) : Decidable (IsEven faces) :=
  inferInstanceAs (Decidable ((edges faces).Perm ((edges faces).map Prod.swap)))

variable {faces : List (List α)}

/-- Other names for the corners do not matter, not even one name for several corners. -/
theorem IsEven.map (h : IsEven faces) (f : α → β) : IsEven (faces.map (·.map f)) := by
  rw [IsEven, edges_map, List.map_map]
  calc ((edges faces).map (Prod.map f f)).Perm
        (((edges faces).map Prod.swap).map (Prod.map f f)) := List.Perm.map _ h
    _ = (edges faces).map (Prod.swap ∘ Prod.map f f) := by
        rw [List.map_map, Prod.map_comp_swap]

theorem IsEven.count_eq [DecidableEq α] (h : IsEven faces) (u v : α) :
    (edges faces).count (u, v) = (edges faces).count (v, u) :=
  calc (edges faces).count (u, v)
      = ((edges faces).map Prod.swap).count (v, u).swap :=
        List.Perm.count_eq h (u, v)
    _ = (edges faces).count (v, u) := List.count_map_of_injective _ _ Prod.swap_injective _

end Edges

/-! ## Positions stand for points -/

namespace IndexedFaces

/-- Each edge is run through as often from `u` to `v` as from `v` to `u`. -/
def IsClosed (r : IndexedFaces) : Prop :=
  ∀ u v, (edges r.faces).count (u, v) = (edges r.faces).count (v, u)

/-- A surface with so many points and sides. No edge is run through twice in one direction, and the
numbers of points, sides and faces are those of a solid without holes. -/
structure IsSpherical (r : IndexedFaces) (points sides : Nat) : Prop where
  once : ∀ u v, (edges r.faces).count (u, v) ≤ 1
  card_undirected : (undirected r.faces).card = sides
  length_points : r.points.length = points
  euler : (r.points.length : Int) - (undirected r.faces).card + r.faces.length = 2

end IndexedFaces

/-- Positions are a function of the point, which tells points apart as far as they are not the
same. -/
theorem exists_position (faces : List Face) :
    ∃ position : Point → Nat, (indexFaces faces).faces = faces.map (·.points.map position) ∧
      ∀ p ∈ faces.flatMap Face.points, ∀ q ∈ faces.flatMap Face.points,
        position p = position q ↔ p.Same q := by
  have hstep := inStep_insertFaces faces
  have hsome := PointIndex.insertFaces_map_some .empty faces
  set index := (PointIndex.empty.insertFaces faces).2
  have hfound : ∀ p ∈ faces.flatMap Face.points, ∃ i, index.get? p = some i := by
    intro p hp
    obtain ⟨f, hf, hp⟩ := List.mem_flatMap.mp hp
    obtain ⟨face, -, hface⟩ := List.mem_map.mp (hsome ▸ List.mem_map_of_mem hf)
    obtain ⟨i, -, hi⟩ := List.mem_map.mp (hface ▸ List.mem_map_of_mem hp)
    exact ⟨i, hi.symm⟩
  refine ⟨fun p => (index.get? p).getD 0, ?_, fun p hp q hq => ?_⟩
  · have h := congrArg (List.map (List.map fun i : Option Nat => i.getD 0)) hsome
    simpa [indexFaces_eq, Function.comp_def] using h
  · obtain ⟨i, hi⟩ := hfound p hp
    obtain ⟨j, hj⟩ := hfound q hq
    simp only [hi, hj, Option.getD_some, ← Point.key_eq_iff]
    have hik := hstep.get?_eq_some_iff.mp hi
    constructor
    · rintro rfl
      exact Option.some.inj (hik.symm.trans (hstep.get?_eq_some_iff.mp hj))
    · intro hkey
      rw [PointIndex.get?, hkey] at hi
      exact Option.some.inj (hi.symm.trans hj)

/-- There are as many points as different positions. -/
theorem length_points_indexFaces (faces : List Face) :
    (indexFaces faces).points.length = (indexFaces faces).faces.flatten.toFinset.card := by
  rw [flatten_indexFaces, PointIndex.toFinset_insertAll, Finset.card_range, points_indexFaces,
    Array.length_toList]
  rfl

/-! ## Faces by the names of their corners -/

/-- Faces with the given points for the names of the corners. -/
def facesAt {α : Type} (corner : α → Point) (names : List (List α)) : List Face :=
  names.map fun face => ⟨face.map corner⟩

section Named

variable {α : Type} (corner : α → Point) {names : List (List α)}

theorem flatMap_points_facesAt (names : List (List α)) :
    (facesAt corner names).flatMap Face.points = names.flatten.map corner := by
  rw [facesAt, List.flatMap_map, List.map_flatten]
  rfl

/-- The positions of the corners, face by face, are named as the corners are. -/
theorem exists_faces_facesAt (names : List (List α)) :
    ∃ position : α → Nat, (indexFaces (facesAt corner names)).faces = names.map (·.map position) ∧
      ∀ a ∈ names.flatten, ∀ b ∈ names.flatten,
        position a = position b ↔ (corner a).Same (corner b) := by
  obtain ⟨position, hfaces, hsame⟩ := exists_position (facesAt corner names)
  rw [flatMap_points_facesAt] at hsame
  refine ⟨position ∘ corner, ?_, fun a ha b hb => ?_⟩
  · simpa [facesAt, Function.comp_def] using hfaces
  · exact hsame _ (List.mem_map_of_mem ha) _ (List.mem_map_of_mem hb)

theorem isClosed_facesAt [DecidableEq α] (h : IsEven names) :
    (indexFaces (facesAt corner names)).IsClosed := by
  obtain ⟨position, hfaces, -⟩ := exists_faces_facesAt corner names
  rw [IndexedFaces.IsClosed, hfaces]
  exact (h.map position).count_eq

/-- Different points have different positions, so what is counted of the names is counted of the
positions. -/
theorem isSpherical_facesAt [DecidableEq α] {points sides : Nat}
    (hcorner : ∀ a b, (corner a).Same (corner b) → a = b) (hall : ∀ a, a ∈ names.flatten)
    (honce : (edges names).Nodup) (hsides : (undirected names).card = sides)
    (hpoints : names.flatten.toFinset.card = points)
    (heuler : (points : Int) - sides + names.length = 2) :
    (indexFaces (facesAt corner names)).IsSpherical points sides := by
  obtain ⟨position, hfaces, hsame⟩ := exists_faces_facesAt corner names
  have hinj : Function.Injective position := fun a b h =>
    hcorner a b ((hsame a (hall a) b (hall b)).mp h)
  have himage : (names.flatten.map position).toFinset = names.flatten.toFinset.image position := by
    ext i
    simp only [List.mem_toFinset, List.mem_map, Finset.mem_image]
  have hlength : (indexFaces (facesAt corner names)).points.length = points := by
    rw [length_points_indexFaces, hfaces, ← List.map_flatten, himage,
      Finset.card_image_of_injective _ hinj, hpoints]
  have hcard : (undirected (indexFaces (facesAt corner names)).faces).card = sides := by
    rw [hfaces, undirected_map, Finset.card_image_of_injective _ (Sym2.map.injective hinj), hsides]
  refine ⟨fun u v => ?_, hcard, hlength, ?_⟩
  · rw [hfaces, edges_map]
    exact List.nodup_iff_count_le_one.mp (honce.map (hinj.prodMap hinj)) (u, v)
  · rw [hlength, hcard, hfaces, List.length_map, heuler]

end Named

/-! ## Prisms -/

/-- The faces of a model that is a polyhedron. -/
def Node.faces : Node → List Face
  | .polyhedron faces => faces
  | _ => []

def Triangle.corners (t : Triangle) : List Point := [t.a, t.b, t.c]

def Quad.corners (q : Quad) : List Point := [q.a, q.b, q.c, q.d]

/-- The faces of the solid between two triangles, by the places of the corners: those of the bottom
are `0` to `2`, those of the top `3` to `5`. -/
def triangularPrismNames : List (List (Fin 6)) :=
  [[0, 2, 1], [3, 4, 5], [4, 3, 0, 1], [3, 5, 2, 0], [5, 4, 1, 2]]

/-- The faces of the solid between two quads, by the places of the corners: those of the bottom are
`0` to `3`, those of the top `4` to `7`. -/
def hexahedronNames : List (List (Fin 8)) :=
  [[4, 5, 6, 7], [4, 7, 3, 0], [5, 4, 0, 1], [6, 5, 1, 2], [7, 6, 2, 3], [0, 3, 2, 1]]

theorem faces_triangularPrism (bottom top : Triangle) :
    (Node.triangularPrism bottom top).faces
      = facesAt (fun i : Fin 6 => (bottom.corners ++ top.corners)[i]) triangularPrismNames := rfl

theorem faces_hexahedron (bottom top : Quad) :
    (Node.hexahedron bottom top).faces
      = facesAt (fun i : Fin 8 => (bottom.corners ++ top.corners)[i]) hexahedronNames := rfl

theorem isEven_triangularPrismNames : IsEven triangularPrismNames := by decide

theorem isEven_hexahedronNames : IsEven hexahedronNames := by decide

/-- No two points of a list are the same. -/
def AllDifferent (ps : List Point) : Prop := ps.Pairwise fun p q => ¬p.Same q

instance (ps : List Point) : Decidable (AllDifferent ps) :=
  inferInstanceAs (Decidable (ps.Pairwise fun p q => ¬p.Same q))

theorem Point.Same.symm {p q : Point} (h : p.Same q) : q.Same p :=
  (Point.key_eq_iff q p).mp ((Point.key_eq_iff p q).mpr h).symm

theorem AllDifferent.eq_of_same {ps : List Point} (h : AllDifferent ps) {i j : Nat}
    (hi : i < ps.length) (hj : j < ps.length) (hsame : ps[i].Same ps[j]) : i = j := by
  have hpairs := List.pairwise_iff_getElem.mp h
  rcases Nat.lt_trichotomy i j with hij | hij | hij
  · exact absurd hsame (hpairs i j hi hj hij)
  · exact hij
  · exact absurd hsame.symm (hpairs j i hj hi hij)

/-- **Prisms and hexahedra are closed surfaces**, whatever their corners are: over one list of
points, every edge is run through as often back as forth. If no two corners are the same, no edge is
run through twice in one direction, and the numbers of points, sides and faces are `6`, `9`, `5` and
`8`, `12`, `6`, as they should be for a solid without holes. -/
theorem closed_prism_hexahedron (bottom top : Triangle) (floor ceiling : Quad) :
    ((indexFaces (Node.triangularPrism bottom top).faces).IsClosed
      ∧ (AllDifferent (bottom.corners ++ top.corners) →
        (indexFaces (Node.triangularPrism bottom top).faces).IsSpherical 6 9))
    ∧ (indexFaces (Node.hexahedron floor ceiling).faces).IsClosed
      ∧ (AllDifferent (floor.corners ++ ceiling.corners) →
        (indexFaces (Node.hexahedron floor ceiling).faces).IsSpherical 8 12) := by
  rw [faces_triangularPrism, faces_hexahedron]
  refine ⟨⟨isClosed_facesAt _ isEven_triangularPrismNames, fun hdifferent => ?_⟩,
    isClosed_facesAt _ isEven_hexahedronNames, fun hdifferent => ?_⟩
  · exact isSpherical_facesAt _ (fun a b h => Fin.ext (hdifferent.eq_of_same a.2 b.2 h))
      (by decide) (by decide) (by decide) (by decide) (by decide)
  · exact isSpherical_facesAt _ (fun a b h => Fin.ext (hdifferent.eq_of_same a.2 b.2 h))
      (by decide) (by decide) (by decide) (by decide) (by decide)

/-- Three corners of a square at a height. -/
def Triangle.level (height : Binary64) : Triangle :=
  let one : Binary64 := ⟨0x3FF0000000000000⟩
  ⟨⟨.zero, .zero, height⟩, ⟨one, .zero, height⟩, ⟨.zero, one, height⟩⟩

/-- A square at a height. -/
def Quad.level (height : Binary64) : Quad :=
  let one : Binary64 := ⟨0x3FF0000000000000⟩
  ⟨⟨.zero, .zero, height⟩, ⟨one, .zero, height⟩, ⟨one, one, height⟩, ⟨.zero, one, height⟩⟩

/-- Between negative zero and a NaN. -/
theorem isSpherical_zero_to_nan :
    let zero : Binary64 := ⟨0x8000000000000000⟩
    let nan : Binary64 := ⟨0x7FF8000000000000⟩
    (indexFaces (Node.triangularPrism (.level zero) (.level nan)).faces).IsSpherical 6 9
      ∧ (indexFaces (Node.hexahedron (.level zero) (.level nan)).faces).IsSpherical 8 12 := by
  intro zero nan
  have h := closed_prism_hexahedron (.level zero) (.level nan) (.level zero) (.level nan)
  exact ⟨h.1.2 (by decide), h.2.2 (by decide)⟩

end SolidScript
