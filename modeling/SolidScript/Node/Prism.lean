import SolidScript.Node

/-!
# Prisms

Solids between two matching outlines, one at the bottom and one at the top. The corners of every
face are listed so that the faces look outward; a face listed the other way round is turned inside
out. A smaller top gives a taper, a shifted one a shear, and one collapsed to a point a pyramid.
-/

namespace SolidScript

/-- Three corners in order around a side. -/
structure Triangle where
  a : Point
  b : Point
  c : Point
deriving DecidableEq, Repr

/-- Four corners in order around a side. -/
structure Quad where
  a : Point
  b : Point
  c : Point
  d : Point
deriving DecidableEq, Repr

namespace Node

/-- The faces of the solid between two triangles. -/
def triangularPrismFaces (bottom top : Triangle) : List Face :=
  [⟨[bottom.a, bottom.c, bottom.b]⟩,
    ⟨[top.a, top.b, top.c]⟩,
    ⟨[top.b, top.a, bottom.a, bottom.b]⟩,
    ⟨[top.a, top.c, bottom.c, bottom.a]⟩,
    ⟨[top.c, top.b, bottom.b, bottom.c]⟩]

/-- The faces of the solid between two quads. -/
def hexahedronFaces (bottom top : Quad) : List Face :=
  [⟨[top.a, top.b, top.c, top.d]⟩,
    ⟨[top.a, top.d, bottom.d, bottom.a]⟩,
    ⟨[top.b, top.a, bottom.a, bottom.b]⟩,
    ⟨[top.c, top.b, bottom.b, bottom.c]⟩,
    ⟨[top.d, top.c, bottom.c, bottom.d]⟩,
    ⟨[bottom.a, bottom.d, bottom.c, bottom.b]⟩]

def triangularPrism (bottom top : Triangle) : Node := .polyhedron (triangularPrismFaces bottom top)

def hexahedron (bottom top : Quad) : Node := .polyhedron (hexahedronFaces bottom top)

end Node

end SolidScript
