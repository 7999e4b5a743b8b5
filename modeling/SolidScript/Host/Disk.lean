import SolidScript.OsError
import SolidScript.Path

/-!
# Disk

Files and directories by their names, and the rules by which a path finds one of them. A path is
followed name by name, so what stands before a `..` has to be there; a slash at the end asks for a
directory. There are no links and no permissions.
-/

namespace SolidScript

inductive Entry where
  | file (content : Bytes)
  | directory
deriving DecidableEq, Repr

/-- A place below the root, by the names on the way to it, the innermost first. -/
abbrev Location := List Bytes

structure Disk where
  entries : List (Location × Entry) := []
deriving DecidableEq, Repr, Inhabited

namespace Disk

/-- What stands at a place. The root is always there. -/
def find? (disk : Disk) (place : Location) : Option Entry :=
  if place = [] then some .directory else disk.entries.lookup place

/-- The disk with something else at a place. -/
def put (disk : Disk) (place : Location) (entry : Entry) : Disk :=
  ⟨(place, entry) :: disk.entries.filter fun e => e.1 ≠ place⟩

/-- The disk without a place and all below it. -/
def erase (disk : Disk) (place : Location) : Disk :=
  ⟨disk.entries.filter fun e => !place.isSuffixOf e.1⟩

/-- The greatest number of bytes of a name. -/
def nameLength : Nat := 255

/-- The number of bytes that no path may reach. -/
def pathLength : Nat := 4096

/-- The place that stretches of a path lead to from another place. It may be empty if the directory
around it is there and the path stops with its name. -/
def follow (disk : Disk) (place : Location) : List Bytes → Except OsError Location
  | [] => .ok place
  | piece :: pieces =>
    match disk.find? place with
    | none => if (piece :: pieces).all (· = []) then .ok place else .error .notFound
    | some (.file _) => .error .notADirectory
    | some .directory =>
      match Path.component? piece with
      | some (.name name) =>
        if nameLength < name.length then .error .nameTooLong
        else disk.follow (name :: place) pieces
      | some .up => disk.follow place.tail pieces
      | _ => disk.follow place pieces

/-- The place of a path as seen from the place `here`. -/
def locate (disk : Disk) (here : Location) (path : Path) : Except OsError Location :=
  if path.bytes.contains 0 then .error .zeroInName
  else if path.bytes = [] then .error .notFound
  else if pathLength ≤ path.bytes.length then .error .nameTooLong
  else disk.follow (if path.isAbsolute then [] else here) (Path.pieces path.bytes)

def exists? (disk : Disk) (here : Location) (path : Path) : Bool :=
  match disk.locate here path with
  | .error _ => false
  | .ok place => (disk.find? place).isSome

def read (disk : Disk) (here : Location) (path : Path) : Except OsError Bytes :=
  match disk.locate here path with
  | .error e => .error e
  | .ok place =>
    match disk.find? place with
    | none => .error .notFound
    | some .directory => .error .isADirectory
    | some (.file content) => .ok content

/-- The path without the slashes at its end. -/
def withoutSlash (path : Path) : Path :=
  ⟨(path.bytes.reverse.dropWhile (· = Path.slash)).reverse⟩

/-- The place that a file can be put at under a path. A name that ends in a slash is no name for a
file, whatever stands there. -/
def locateFile (disk : Disk) (here : Location) (path : Path) : Except OsError Location :=
  match disk.locate here path with
  | .error .notADirectory =>
    match disk.locate here (withoutSlash path) with
    | .ok _ => .error .isADirectory
    | .error e => .error e
  | .error e => .error e
  | .ok place =>
    if disk.find? place = some .directory then .error .isADirectory
    else if withoutSlash path ≠ path then .error .isADirectory
    else .ok place

/-- The disk on which a file holds the bytes. -/
def write (disk : Disk) (here : Location) (path : Path) (content : Bytes) : Except OsError Disk :=
  (disk.locateFile here path).map fun place => disk.put place (.file content)

/-- The names of a path, the innermost first. -/
def place (path : Path) : Location :=
  (path.components.filterMap fun part =>
    match part with
    | .name name => some name
    | _ => none).reverse

/-- The disk with directories for the names of a place, the outer ones first. -/
def makeDirectories (disk : Disk) : Location → Disk
  | [] => disk
  | name :: outer =>
    let disk := disk.makeDirectories outer
    if (disk.find? (name :: outer)).isSome then disk else disk.put (name :: outer) .directory

end Disk

end SolidScript
