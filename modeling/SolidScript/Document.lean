import SolidScript.Json.Shape
import SolidScript.Node

/-!
# Document

Models in the exchange format. `Node.toJson?` is the value that a model is written as, and
`Node.ofJson?` takes it back. Every node is an object with one entry, whose key names the kind of
node; `Document.variants` lists the kinds and what belongs to each.

A model cannot be written if one of its mesh files has a path that is no text. A written model
cannot be read back if it holds a number that is not finite, or if its text opens more than
`Document.levels` brackets.
-/

namespace SolidScript

namespace Document

/-- The number of brackets that may be open at once in a document that is read. -/
def levels : Nat := 127

/-- A record with a name of its own. -/
def record (name : String) (fields : List (String × Shape)) : Shape :=
  .record (.named name.toList) (fields.map fun (name, shape) => (name.toList, shape))

/-- The fields of a kind of node. -/
def fieldsOf (kind : String) (fields : List (String × Shape)) : Shape :=
  .record (.variant ("Node::".toList ++ kind.toList))
    (fields.map fun (name, shape) => (name.toList, shape))

def point : Shape := record "Point" [("x", .number), ("y", .number), ("z", .number)]

def face : Shape := record "Face" [("points", .list point)]

def rgba : Shape :=
  record "Rgba" [("r", .number), ("g", .number), ("b", .number), ("a", .number)]

/-- The kinds of nodes and of operations, with what belongs to each. -/
def variants : Choice → List (Text × Shape)
  | .node => [
      ("literal".toList, .text),
      ("list".toList, .list (.choice .node)),
      ("cube".toList, fieldsOf "Cube" [("size", .vector), ("center", .flag)]),
      ("sphere".toList, fieldsOf "Sphere" [("r", .number)]),
      ("cylinder".toList, fieldsOf "Cylinder"
        [("h", .number), ("r_top", .number), ("r_bottom", .number), ("center", .flag)]),
      ("polyhedron".toList, .list face),
      ("union".toList, .list (.choice .node)),
      ("difference".toList, fieldsOf "Difference"
        [("parent", .choice .node), ("children", .list (.choice .node))]),
      ("intersection".toList, .list (.choice .node)),
      ("transform".toList, fieldsOf "Transform"
        [("op", .choice .op), ("content", .choice .node)]),
      ("import".toList, .path)]
  | .op => [
      ("scale".toList, .vector),
      ("resize".toList, .vector),
      ("rotate".toList, .vector),
      ("translate".toList, .vector),
      ("mirror".toList, .vector),
      ("color".toList, rgba)]

/-- An object with one entry. -/
def entry (key : String) (content : Json) : Json := .object [(key.toList, content)]

/-- An object with the given entries. -/
def entries (fields : List (String × Json)) : Json :=
  .object (fields.map fun (key, j) => (key.toList, j))

end Document

open Document (entry entries)

/-! ## Writing -/

def Vec3.toJson (v : Vec3) : Json := .array [.number v.x, .number v.y, .number v.z]

def Rgba.toJson (c : Rgba) : Json :=
  entries [("r", .number c.r), ("g", .number c.g), ("b", .number c.b), ("a", .number c.a)]

def Point.toJson (p : Point) : Json :=
  entries [("x", .number p.x), ("y", .number p.y), ("z", .number p.z)]

def Face.toJson (f : Face) : Json := entries [("points", .array (f.points.map Point.toJson))]

def TransformOp.toJson : TransformOp → Json
  | .scale v => entry "scale" v.toJson
  | .resize v => entry "resize" v.toJson
  | .rotate v => entry "rotate" v.toJson
  | .translate v => entry "translate" v.toJson
  | .mirror v => entry "mirror" v.toJson
  | .color c => entry "color" c.toJson

namespace Node

mutual

/-- The value that a model is written as, if every mesh file in it has a path that is a text. -/
def toJson? : Node → Option Json
  | .literal text => some (entry "literal" (.string text))
  | .list cs => (toJsonAll? cs).map fun js => entry "list" (.array js)
  | .cube size center =>
    some (entry "cube" (entries [("size", size.toJson), ("center", .bool center)]))
  | .sphere r => some (entry "sphere" (entries [("r", .number r)]))
  | .cylinder h rTop rBottom center =>
    some (entry "cylinder" (entries [("h", .number h), ("r_top", .number rTop),
      ("r_bottom", .number rBottom), ("center", .bool center)]))
  | .polyhedron faces => some (entry "polyhedron" (.array (faces.map Face.toJson)))
  | .union cs => (toJsonAll? cs).map fun js => entry "union" (.array js)
  | .difference parent cs =>
    match parent.toJson?, toJsonAll? cs with
    | some j, some js =>
      some (entry "difference" (entries [("parent", j), ("children", .array js)]))
    | _, _ => none
  | .intersection cs => (toJsonAll? cs).map fun js => entry "intersection" (.array js)
  | .transform op content =>
    content.toJson?.map fun j => entry "transform" (entries [("op", op.toJson), ("content", j)])
  | .mesh file => file.toText?.map fun text => entry "import" (.string text)

/-- The values of several models. -/
def toJsonAll? : List Node → Option (List Json)
  | [] => some []
  | c :: cs =>
    match c.toJson?, toJsonAll? cs with
    | some j, some js => some (j :: js)
    | _, _ => none

end

end Node

/-! ## Reading -/

def Vec3.ofJson? : Json → Option Vec3
  | .array [.number x, .number y, .number z] => some ⟨x, y, z⟩
  | _ => none

def Rgba.ofJson? : Json → Option Rgba
  | .object [(_, .number r), (_, .number g), (_, .number b), (_, .number a)] => some ⟨r, g, b, a⟩
  | _ => none

def Point.ofJson? : Json → Option Point
  | .object [(_, .number x), (_, .number y), (_, .number z)] => some ⟨x, y, z⟩
  | _ => none

def Face.ofJson? : Json → Option Face
  | .object [(_, .array ps)] => (ps.mapM Point.ofJson?).map Face.mk
  | _ => none

def TransformOp.ofJson? : Json → Option TransformOp
  | .object [(key, j)] =>
    if key = "scale".toList then (Vec3.ofJson? j).map .scale
    else if key = "resize".toList then (Vec3.ofJson? j).map .resize
    else if key = "rotate".toList then (Vec3.ofJson? j).map .rotate
    else if key = "translate".toList then (Vec3.ofJson? j).map .translate
    else if key = "mirror".toList then (Vec3.ofJson? j).map .mirror
    else if key = "color".toList then (Rgba.ofJson? j).map .color
    else none
  | _ => none

namespace Node

mutual

/-- The model that a value in the spelling of `toJson?` stands for. -/
def ofJson? : Json → Option Node
  | .object [(key, j)] => ofContent? key j
  | _ => none

/-- The model of the given kind with the given content. -/
def ofContent? (key : Text) : Json → Option Node
  | .string text =>
    if key = "literal".toList then some (.literal text)
    else if key = "import".toList then some (.mesh (.ofText text))
    else none
  | .array js =>
    if key = "polyhedron".toList then (js.mapM Face.ofJson?).map .polyhedron
    else match ofJsonAll? js with
      | none => none
      | some cs =>
        if key = "list".toList then some (.list cs)
        else if key = "union".toList then some (.union cs)
        else if key = "intersection".toList then some (.intersection cs)
        else none
  | .object [(_, .number r)] => if key = "sphere".toList then some (.sphere r) else none
  | .object [(_, a), (_, .bool center)] =>
    if key = "cube".toList then (Vec3.ofJson? a).map (.cube · center) else none
  | .object [(_, .number h), (_, .number rTop), (_, .number rBottom), (_, .bool center)] =>
    if key = "cylinder".toList then some (.cylinder h rTop rBottom center) else none
  | .object [(_, parent), (_, .array js)] =>
    if key = "difference".toList then
      match ofJson? parent, ofJsonAll? js with
      | some p, some cs => some (.difference p cs)
      | _, _ => none
    else none
  | .object [(_, op), (_, content)] =>
    if key = "transform".toList then
      match TransformOp.ofJson? op, ofJson? content with
      | some op, some c => some (.transform op c)
      | _, _ => none
    else none
  | _ => none

/-- The models that several values stand for. -/
def ofJsonAll? : List Json → Option (List Node)
  | [] => some []
  | j :: js =>
    match ofJson? j, ofJsonAll? js with
    | some c, some cs => some (c :: cs)
    | _, _ => none

end

/-- The model that a text spells. -/
def parse (t : Text) : Except ReadError Node :=
  match Json.readAll Document.variants Document.levels (.choice .node) t with
  | .error e => .error e
  | .ok j =>
    match ofJson? j with
    | some m => .ok m
    | none => .error .malformed

/-- The text of a model, on one line or on many. -/
def print? (layout : Json.Layout) (m : Node) : Option Text := m.toJson?.map (Json.print layout)

end Node

end SolidScript
