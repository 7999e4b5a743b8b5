import SolidScript.ExitStatus
import SolidScript.Log.Logger
import SolidScript.OsError
import SolidScript.Path

/-!
# Host

What the program asks of the system it runs on. Everything beyond building and rendering is written
against these questions, so it runs alike on a system and on a `Machine` that is kept in memory.
-/

namespace SolidScript

/-- What came of a program that was started with something to read. -/
inductive Feeding where
  | notStarted (cause : OsError)
  /-- It was started and did not read to the end. -/
  | brokenOff (cause : OsError)
  | ended (status : ExitStatus)
deriving DecidableEq, Repr

class Host (m : Type → Type) where
  readFile : Path → m (Except OsError Bytes)
  /-- Makes a file hold the bytes and nothing else. -/
  writeFile : Path → Bytes → m (Except OsError Unit)
  /-- There is a file or a directory of this name. -/
  exists? : Path → m Bool
  /-- Makes a file in a directory, under a new name between the two given texts. -/
  writeNew : Path → Text → Text → Bytes → m (Except OsError Path)
  lookup : Text → m (Option Bytes)
  /-- Starts a program, gives it the bytes to read, and waits for its end. -/
  feed : Text → List Text → Bytes → m Feeding
  /-- Starts a program on a file and does not wait for its end. -/
  launch : Text → Path → m (Except OsError Unit)
  /-- Puts a text on the output stream. -/
  print : Text → m Unit
  /-- Puts a text on the error stream. -/
  report : Text → m Unit
  log : Record → m Unit
  /-- From now on records go to a logger, unless there is one already. -/
  setLogger : Logger → m Unit
  /-- The time in nanoseconds since some moment in the past. -/
  clock : m Nat

namespace Host

variable {m : Type → Type} [Monad m] [Host m]

def logAll : List Record → m Unit
  | [] => pure ()
  | r :: rs => do
    Host.log r
    logAll rs

/-- Several variables at once. Others count as absent. -/
def environment (names : List Text) : m Environment := do
  let found ← names.mapM fun name => do return (name, ← Host.lookup name)
  return fun name => (found.lookup name).join

end Host

end SolidScript
