import SolidScript.Number.Decimal

/-!
# Exit status

How a program came to its end: with a status of its own, or by a signal.
-/

namespace SolidScript

inductive ExitStatus where
  | code (n : Nat)
  | signal (n : Nat)
deriving DecidableEq, Repr

namespace ExitStatus

def isSuccess (status : ExitStatus) : Bool := status = .code 0

/-- The names of the signals, from the first on. -/
def signalNames : List String :=
  ["HUP", "INT", "QUIT", "ILL", "TRAP", "ABRT", "BUS", "FPE", "KILL", "USR1", "SEGV", "USR2",
    "PIPE", "ALRM", "TERM", "STKFLT", "CHLD", "CONT", "STOP", "TSTP", "TTIN", "TTOU", "URG", "XCPU",
    "XFSZ", "VTALRM", "PROF", "WINCH", "IO", "PWR", "SYS"]

/-- The name of a signal between brackets, if it has one. -/
def signalSuffix (n : Nat) : Text :=
  match signalNames[n - 1]? with
  | none => []
  | some name => " (SIG".toList ++ name.toList ++ [')']

def message : ExitStatus → Text
  | .code n => "exit status: ".toList ++ digits n
  | .signal n => "signal: ".toList ++ digits n ++ signalSuffix n

end ExitStatus

end SolidScript
