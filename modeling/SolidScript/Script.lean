import SolidScript.Log
import SolidScript.Number.Style
import SolidScript.PointIndex
import SolidScript.Script.Quoted
import SolidScript.Settings

/-!
# Script

A model as the text of an OpenSCAD script. Every body is a statement; a union, difference,
intersection or transformation is a block around the statements below it, each moved one step to the
right. A list has nothing around it: its statements stand where the list would.
-/

namespace SolidScript

namespace Script

/-- Numbers between brackets. -/
def vector (xs : List Binary64) : Text := '[' :: Text.commas (xs.map Binary64.toScript) ++ [']']

def flag (b : Bool) : Text := if b then "true".toList else "false".toList

def cube (size : Vec3) (center : Bool) : Text :=
  "cube(".toList ++ vector [size.x, size.y, size.z] ++ ", ".toList ++ flag center ++ ");".toList

def sphere (settings : Settings) (r : Binary64) : Text :=
  "sphere(".toList ++ r.toScript ++ ", $fn=".toList ++ digits settings.resolution.toNat
    ++ ");".toList

/-- The bottom radius stands before the top radius. -/
def cylinder (settings : Settings) (h rTop rBottom : Binary64) (center : Bool) : Text :=
  "cylinder($fn = ".toList ++ Text.commas [digits settings.resolution.toNat, h.toScript,
    rBottom.toScript, rTop.toScript, flag center] ++ ");".toList

/-- A named list on lines of its own. An empty list has no line between its brackets. -/
def listSection (name : String) (body : Text) : Text :=
  Text.indentation 1 ++ name.toList ++ " = [\n".toList
    ++ (if body.isEmpty then [] else Text.indentation 2 ++ body ++ ['\n'])
    ++ Text.indentation 1 ++ "],\n".toList

def polyhedron (faces : List Face) : Text :=
  let indexed := indexFaces faces
  let points := Text.commas (indexed.points.map fun p => vector [p.x, p.y, p.z])
  let sides := Text.commas
    (indexed.faces.map fun face => '[' :: Text.commas (face.map digits) ++ [']'])
  "polyhedron(\n".toList ++ listSection "points" points ++ listSection "faces" sides
    ++ "convexity = 10);".toList

/-- A mesh file. Bytes of its path that are no text are shown as U+FFFD. -/
def mesh (settings : Settings) (file : Path) : Text :=
  "import(\"".toList ++ Quoted.encode file.display ++ ['"']
    ++ (match settings.meshConvexity with
      | none => []
      | some n => ", convexity = ".toList ++ digits n.toNat)
    ++ ");".toList

/-- The lines of one part of a block. A part without text leaves no line behind. -/
def blockPart (part : Text) : Text :=
  if part.isEmpty then []
  else (Text.split part).flatMap fun line => Text.indentLine 1 line ++ ['\n']

/-- A head, the parts one step to the right, and the end of the block. -/
def block (head : Text) (parts : List Text) : Text :=
  head ++ " \x7b\n".toList ++ parts.flatMap blockPart ++ "\x7d;".toList

def transformHead (op : TransformOp) : Text :=
  op.keyword ++ '(' :: vector op.params ++ [')']

end Script

namespace Node

mutual

/-- The script of a model. -/
def render (settings : Settings) : Node → Text
  | .literal text => text
  | .list cs => Text.join (renderAll settings cs)
  | .cube size center => Script.cube size center
  | .sphere r => Script.sphere settings r
  | .cylinder h rTop rBottom center => Script.cylinder settings h rTop rBottom center
  | .polyhedron faces => Script.polyhedron faces
  | .union cs => Script.block "union()".toList (renderAll settings cs)
  | .difference parent cs =>
    Script.block "difference()".toList (parent.render settings :: renderAll settings cs)
  | .intersection cs => Script.block "intersection()".toList (renderAll settings cs)
  | .transform op content => Script.block (Script.transformHead op) [content.render settings]
  | .mesh file => Script.mesh settings file

/-- The scripts of several models. -/
def renderAll (settings : Settings) : List Node → List Text
  | [] => []
  | c :: cs => c.render settings :: renderAll settings cs

end

/-- What indexing the points of faces tells the log. -/
def indexingRecord (faces : List Face) : Record where
  level := .trace
  source := "scadkit::scad::points"
  message := "indexed ".toList ++ digits faces.length ++ " faces: ".toList
    ++ digits (faces.foldr (fun f n => f.points.length + n) 0) ++ " point references, ".toList
    ++ digits (indexFaces faces).points.length ++ " unique points".toList

/-- What rendering a mesh tells the log: a warning if its path is no text. -/
def meshRecords (file : Path) : List Record :=
  if file.toText?.isSome then []
  else [{
    level := .warn
    source := "scadkit::scad::writer"
    message := "import path ".toList ++ file.display
      ++ " is not valid UTF-8; invalid bytes become U+FFFD".toList }]

mutual

/-- What rendering tells the log, in order. -/
def renderRecords : Node → List Record
  | .polyhedron faces => [indexingRecord faces]
  | .mesh file => meshRecords file
  | .list cs | .union cs | .intersection cs => renderRecordsAll cs
  | .difference parent cs => parent.renderRecords ++ renderRecordsAll cs
  | .transform _ content => content.renderRecords
  | .literal _ | .cube _ _ | .sphere _ | .cylinder _ _ _ _ => []

/-- What rendering several models tells the log. -/
def renderRecordsAll : List Node → List Record
  | [] => []
  | c :: cs => c.renderRecords ++ renderRecordsAll cs

end

end Node

end SolidScript
