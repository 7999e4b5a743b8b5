import SolidScript.Number.Binary64
import SolidScript.Path

/-!
# Node

A solid model as a tree. Leaves are primitive bodies, imported meshes and raw text; inner nodes
unite, subtract, intersect and move what lies below them. Trees are plain values: building a
bigger one leaves the smaller ones as they were.
-/

namespace SolidScript

/-- Three numbers along the axes. -/
structure Vec3 where
  x : Binary64
  y : Binary64
  z : Binary64
deriving DecidableEq, Repr, Inhabited

/-- A color by its red, green, blue and opacity, meant to lie between zero and one. -/
structure Rgba where
  r : Binary64
  g : Binary64
  b : Binary64
  a : Binary64
deriving DecidableEq, Repr, Inhabited

/-- A corner of a polyhedron. -/
structure Point where
  x : Binary64
  y : Binary64
  z : Binary64
deriving DecidableEq, Repr, Inhabited

/-- One side of a polyhedron. The order of its corners says which way it faces. -/
structure Face where
  points : List Point
deriving DecidableEq, Repr, Inhabited

/-- What a block does to the one tree inside it. -/
inductive TransformOp where
  | scale (factors : Vec3)
  | resize (size : Vec3)
  | rotate (degrees : Vec3)
  | translate (offset : Vec3)
  | mirror (normal : Vec3)
  | color (paint : Rgba)
deriving DecidableEq, Repr

inductive Node where
  /-- Text that goes into the script as it is. -/
  | literal (text : Text)
  /-- Trees side by side, without anything around them. -/
  | list (children : List Node)
  /-- `size` is width, depth, height. -/
  | cube (size : Vec3) (center : Bool)
  | sphere (r : Binary64)
  | cylinder (h rTop rBottom : Binary64) (center : Bool)
  | polyhedron (faces : List Face)
  | union (children : List Node)
  /-- `parent` without any of the children. -/
  | difference (parent : Node) (children : List Node)
  | intersection (children : List Node)
  | transform (op : TransformOp) (content : Node)
  /-- A mesh in a file of its own. -/
  | mesh (file : Path)
deriving Repr

namespace Point

/-- The corner moved along the axes. -/
def offset (p : Point) (dx dy dz : Binary64) : Point := ⟨p.x + dx, p.y + dy, p.z + dz⟩

/-- Equality of corners as numbers. -/
def eqv (p q : Point) : Bool := p.x.eqv q.x && p.y.eqv q.y && p.z.eqv q.z

end Point

namespace Vec3

def eqv (v w : Vec3) : Bool := v.x.eqv w.x && v.y.eqv w.y && v.z.eqv w.z

end Vec3

namespace Rgba

def eqv (c d : Rgba) : Bool := c.r.eqv d.r && c.g.eqv d.g && c.b.eqv d.b && c.a.eqv d.a

end Rgba

/-- Equality of lists item by item. -/
def listEqv {α : Type} (eqv : α → α → Bool) : List α → List α → Bool
  | [], [] => true
  | a :: as, b :: bs => eqv a b && listEqv eqv as bs
  | _, _ => false

namespace Face

def eqv (f g : Face) : Bool := listEqv Point.eqv f.points g.points

end Face

namespace TransformOp

/-- The word that a script uses for the operation. -/
def keyword : TransformOp → Text
  | .scale _ => "scale".toList
  | .resize _ => "resize".toList
  | .rotate _ => "rotate".toList
  | .translate _ => "translate".toList
  | .mirror _ => "mirror".toList
  | .color _ => "color".toList

/-- The numbers of the operation, in order. -/
def params : TransformOp → List Binary64
  | .scale v | .resize v | .rotate v | .translate v | .mirror v => [v.x, v.y, v.z]
  | .color c => [c.r, c.g, c.b, c.a]

def eqv : TransformOp → TransformOp → Bool
  | .scale v, .scale w => v.eqv w
  | .resize v, .resize w => v.eqv w
  | .rotate v, .rotate w => v.eqv w
  | .translate v, .translate w => v.eqv w
  | .mirror v, .mirror w => v.eqv w
  | .color c, .color d => c.eqv d
  | _, _ => false

end TransformOp

namespace Node

/-- The empty model. -/
instance : Inhabited Node := ⟨.list []⟩

/-- The trees directly below a node, in the order in which a script shows them. -/
def children : Node → List Node
  | .list cs | .union cs | .intersection cs => cs
  | .difference parent cs => parent :: cs
  | .transform _ content => [content]
  | _ => []

mutual

/-- The number of nodes of a tree, itself included. -/
def count : Node → Nat
  | .list cs | .union cs | .intersection cs => 1 + countAll cs
  | .difference parent cs => 1 + (parent.count + countAll cs)
  | .transform _ content => 1 + content.count
  | _ => 1

/-- The number of nodes of several trees. -/
def countAll : List Node → Nat
  | [] => 0
  | c :: cs => c.count + countAll cs

end

mutual

/-- Equality of trees, their numbers compared as numbers and their files by the parts of the path.
A tree with a NaN in it is not even equal to itself. -/
def eqv : Node → Node → Bool
  | .literal s, .literal t => s = t
  | .list cs, .list ds => eqvAll cs ds
  | .cube v c, .cube w d => v.eqv w && c = d
  | .sphere r, .sphere s => r.eqv s
  | .cylinder h t b c, .cylinder h' t' b' c' => h.eqv h' && t.eqv t' && b.eqv b' && c = c'
  | .polyhedron fs, .polyhedron gs => listEqv Face.eqv fs gs
  | .union cs, .union ds => eqvAll cs ds
  | .difference p cs, .difference q ds => p.eqv q && eqvAll cs ds
  | .intersection cs, .intersection ds => eqvAll cs ds
  | .transform o c, .transform p d => o.eqv p && c.eqv d
  | .mesh f, .mesh g => f.eqv g
  | _, _ => false

/-- Equality of several trees with several others, in order. -/
def eqvAll : List Node → List Node → Bool
  | [], [] => true
  | c :: cs, d :: ds => c.eqv d && eqvAll cs ds
  | _, _ => false

end

end Node

end SolidScript
