import SolidScript.Node
import SolidScript.Text.Utf8

/-!
# Summary

The size of a model and of its script.
-/

namespace SolidScript

structure Summary where
  nodes : Nat
  lines : Nat
  bytes : Nat
deriving DecidableEq, Repr

/-- The size of a model and of a text that belongs to it. -/
def Node.summary (m : Node) (script : Text) : Summary where
  nodes := m.count
  lines := script.lineCount
  bytes := Utf8.size script

end SolidScript
