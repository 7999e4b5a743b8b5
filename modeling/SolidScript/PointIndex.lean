import SolidScript.Node
import Std.Data.HashMap

/-!
# Point index

A polyhedron is written as one list of points and faces that refer to them by position. The index
hands out positions in the order in which points first appear, so the result depends on the order of
the faces alone.

Two points are one if their coordinates have the same keys: zeros of either sign are one number, and
a NaN is told from another by its bits. Of points with one key the first is kept.
-/

namespace SolidScript

/-- What tells two points apart. -/
structure PointKey where
  x : UInt64
  y : UInt64
  z : UInt64
deriving DecidableEq, Hashable, Repr

def Point.key (p : Point) : PointKey := ⟨p.x.key, p.y.key, p.z.key⟩

/-- Points in the order of their first appearance, and where each key stands among them. -/
structure PointIndex where
  points : Array Point
  lookup : Std.HashMap PointKey Nat

namespace PointIndex

def empty : PointIndex := ⟨#[], ∅⟩

def size (index : PointIndex) : Nat := index.points.size

def isEmpty (index : PointIndex) : Bool := index.points.isEmpty

/-- The position of a point that has been seen. -/
def get? (index : PointIndex) (p : Point) : Option Nat := index.lookup[p.key]?

/-- The position of a point, which goes to the end if it has not been seen. -/
def insert (index : PointIndex) (p : Point) : Nat × PointIndex :=
  match index.get? p with
  | some i => (i, index)
  | none => (index.size, ⟨index.points.push p, index.lookup.insert p.key index.size⟩)

/-- Insertion that goes to the table once. The key takes the next free position unless it has one,
and a point whose position is the next free one is new. -/
def insertOnce (index : PointIndex) (p : Point) : Nat × PointIndex :=
  let next := index.size
  let (old?, lookup) := index.lookup.getThenInsertIfNew? p.key next
  let i := old?.getD next
  (i, ⟨if i = next then index.points.push p else index.points, lookup⟩)

/-- The positions of several points, taken in order. -/
def insertAll (index : PointIndex) : List Point → List Nat × PointIndex
  | [] => ([], index)
  | p :: ps =>
    let (i, index) := index.insert p
    let (is, index) := index.insertAll ps
    (i :: is, index)

/-- The positions of the corners of several faces, taken in order. -/
def insertFaces (index : PointIndex) : List Face → List (List Nat) × PointIndex
  | [] => ([], index)
  | f :: fs =>
    let (is, index) := index.insertAll f.points
    let (iss, index) := index.insertFaces fs
    (is :: iss, index)

end PointIndex

/-- A list of points, and faces that refer to them by position. -/
structure IndexedFaces where
  points : List Point
  faces : List (List Nat)
deriving DecidableEq, Repr

/-- Faces over one list of points without repetition. -/
def indexFaces (faces : List Face) : IndexedFaces :=
  let (iss, index) := PointIndex.empty.insertFaces faces
  ⟨index.points.toList, iss⟩

end SolidScript
