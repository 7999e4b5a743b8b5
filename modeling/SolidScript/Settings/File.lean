import SolidScript.Json.Lexeme
import SolidScript.Settings
import SolidScript.Toml.Reader

/-!
# Settings files

Settings from the text of a file. Entries under other names are passed over. The two settings are
taken in the order of the file, and the first that is no number of thirty-two bits is reported.
-/

namespace SolidScript.Settings

/-- What a message calls a value. -/
def found : Toml → Found
  | .integer i => .integer i
  | .float x => .float x
  | .boolean b => .boolean b
  | .string t => .string t
  | .moment => .map
  | .array _ => .sequence
  | .table _ _ => .map
  | .tables _ => .sequence

/-- A setting as a file gives it. -/
def ofToml : Toml → Except Misfit UInt32
  | .integer i =>
    if 0 ≤ i ∧ i < UInt32.size then .ok (UInt32.ofNat i.toNat)
    else .error (.wrongValue (.integer i) "u32".toList)
  | v => .error (.wrongType (found v) "u32".toList)

/-- The settings with the effect of one entry. -/
def withEntry (s : Settings) : Text × Toml → Except Misfit Settings
  | (name, v) =>
    if name = "resolution".toList then
      (ofToml v).map fun n => { s with resolution := n }
    else if name = "import_convexity".toList then
      (ofToml v).map fun n => { s with meshConvexity := some n }
    else .ok s

/-- The settings with the effects of several entries, in order. -/
def withEntries (s : Settings) : Toml.Entries → Except Misfit Settings
  | [] => .ok s
  | e :: es =>
    match s.withEntry e with
    | .error cause => .error cause
    | .ok s => s.withEntries es

/-- The settings that a text gives. What it does not give is as usual. -/
def parse (t : Text) : Except ReadError Settings :=
  match Toml.parse? t with
  | none => .error .malformed
  | some es =>
    match withEntries {} es with
    | .error cause => .error (.misfit cause)
    | .ok s => .ok s

end SolidScript.Settings
