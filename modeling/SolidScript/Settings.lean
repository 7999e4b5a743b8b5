import SolidScript.Number.Decimal

/-!
# Settings

What a script is rendered with. Settings are consulted when a model becomes a script, never when
the model is built.
-/

namespace SolidScript

structure Settings where
  /-- The number of fragments of a round body. -/
  resolution : UInt32 := 50
  /-- A hint that is put behind every imported mesh, if there is one. -/
  meshConvexity : Option UInt32 := none
deriving DecidableEq, Repr, Inhabited

namespace Settings

/-- New values for some of the settings. Others stay as they are. -/
structure Change where
  resolution : Option UInt32 := none
  /-- A change to `none` takes the hint away. -/
  meshConvexity : Option (Option UInt32) := none
deriving DecidableEq, Repr

def change (s : Settings) (c : Change) : Settings where
  resolution := c.resolution.getD s.resolution
  meshConvexity := c.meshConvexity.getD s.meshConvexity

/-- The settings as a file shows them: a line for each that is present. -/
def toToml (s : Settings) : Text :=
  "resolution = ".toList ++ digits s.resolution.toNat ++ ['\n'] ++
    match s.meshConvexity with
    | none => []
    | some n => "import_convexity = ".toList ++ digits n.toNat ++ ['\n']

@[simp] theorem change_nothing (s : Settings) : s.change {} = s := rfl

end Settings

end SolidScript
