import SolidScript.Log
import SolidScript.OsError
import SolidScript.Path

/-!
# Resolving

A path under the current directory. Where the current directory cannot be read the path stays as it
is, folded, and the log is told.
-/

namespace SolidScript.Path

/-- The path under the current directory, or by itself where there is none to be read. -/
def resolve (currentDir : Except OsError Path) (p : Path) : Path :=
  if p.isAbsolute then p.normalize
  else match currentDir with
    | .ok dir => (dir.join p).normalize
    | .error _ => p.normalize

/-- What resolving tells the log. -/
def resolveRecords (currentDir : Except OsError Path) (p : Path) : List Record :=
  if p.isAbsolute then []
  else match currentDir with
    | .ok _ => []
    | .error e => [{
        level := .warn
        source := "scadkit::utils::path"
        message := "cannot read current directory, keeping relative path ".toList ++ p.display
          ++ ": ".toList ++ e.message }]

end SolidScript.Path
