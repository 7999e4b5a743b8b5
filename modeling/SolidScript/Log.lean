import SolidScript.Text.Basic

/-!
# Log

Records of what happens beside the answers: a level, the part of the program that speaks, and a
message. A `Filter` decides which records are shown.
-/

namespace SolidScript

/-- How grave a record is, the gravest first. -/
inductive Level where
  | error
  | warn
  | info
  | debug
  | trace
deriving DecidableEq, Repr

namespace Level

def name : Level → String
  | .error => "ERROR"
  | .warn => "WARN"
  | .info => "INFO"
  | .debug => "DEBUG"
  | .trace => "TRACE"

/-- The place of a level, from one for the gravest. -/
def rank : Level → Nat
  | .error => 1
  | .warn => 2
  | .info => 3
  | .debug => 4
  | .trace => 5

end Level

structure Record where
  level : Level
  /-- The part of the program that speaks. -/
  source : String
  message : Text
deriving DecidableEq, Repr

end SolidScript
