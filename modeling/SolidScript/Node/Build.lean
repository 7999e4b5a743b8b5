import SolidScript.Node
import SolidScript.Path.Resolve

/-!
# Building models

Constructors by what they make, and the same operations in the order in which a model grows:
`m.translated x y z`, `m - hole`. Nothing is checked and nothing can fail. Negative or infinite
sizes go into the tree as they are.
-/

namespace SolidScript.Node

/-! ## Bodies -/

/-- A box by its height, width and depth. -/
def cuboid (height width depth : Binary64) (center : Bool) : Node :=
  .cube ⟨width, depth, height⟩ center

/-- A box with equal sides. -/
def box (side : Binary64) (center : Bool) : Node := cuboid side side side center

/-- A cylinder, or a cone where the radii differ. -/
def tube (height topRadius bottomRadius : Binary64) (center : Bool) : Node :=
  .cylinder height topRadius bottomRadius center

/-- A mesh file, looked for from the current directory. -/
def meshFrom (currentDir : Except OsError Path) (file : Path) : Node :=
  .mesh (file.resolve currentDir)

/-- `n` copies side by side. -/
def copies (n : Nat) (m : Node) : Node := .list (List.replicate n m)

/-! ## Combinations -/

def unite (first : Node) (others : List Node) : Node := .union (first :: others)

/-- `parent` without the others. -/
def subtract (parent : Node) (others : List Node) : Node := .difference parent others

/-- `removed` taken away from `solid`, in reading order. -/
def remove (removed solid : Node) : Node := subtract solid [removed]

def intersect (first : Node) (others : List Node) : Node := .intersection (first :: others)

/-! ## Transformations -/

/-- An operation on some subjects. A single subject stands in the block itself, and any other number
of them goes through a list. -/
def wrap (op : TransformOp) : List Node → Node
  | [subject] => .transform op subject
  | subjects => .transform op (.list subjects)

def scaleAll (x y z : Binary64) : List Node → Node := wrap (.scale ⟨x, y, z⟩)

def resizeAll (x y z : Binary64) : List Node → Node := wrap (.resize ⟨x, y, z⟩)

/-- Rotation in degrees about the axes, x first. -/
def rotateAll (x y z : Binary64) : List Node → Node := wrap (.rotate ⟨x, y, z⟩)

def translateAll (x y z : Binary64) : List Node → Node := wrap (.translate ⟨x, y, z⟩)

/-- Mirroring at the plane through the origin with the given normal. -/
def mirrorAll (x y z : Binary64) : List Node → Node := wrap (.mirror ⟨x, y, z⟩)

def colorAll (r g b a : Binary64) : List Node → Node := wrap (.color ⟨r, g, b, a⟩)

/-! ## Growing a model -/

def unitedWith (m other : Node) : Node := unite m [other]

/-- The model without `other`. -/
def without (m other : Node) : Node := subtract m [other]

def intersectedWith (m other : Node) : Node := intersect m [other]

instance : Add Node := ⟨unitedWith⟩

instance : Sub Node := ⟨without⟩

def scaled (m : Node) (x y z : Binary64) : Node := scaleAll x y z [m]

def resized (m : Node) (x y z : Binary64) : Node := resizeAll x y z [m]

def rotated (m : Node) (x y z : Binary64) : Node := rotateAll x y z [m]

def translated (m : Node) (x y z : Binary64) : Node := translateAll x y z [m]

def mirrored (m : Node) (x y z : Binary64) : Node := mirrorAll x y z [m]

def colored (m : Node) (r g b a : Binary64) : Node := colorAll r g b a [m]

/-- A subject alone is not put into a list. -/
@[simp] theorem wrap_singleton (op : TransformOp) (m : Node) : wrap op [m] = .transform op m := rfl

end SolidScript.Node
