import SolidScript.Settings.Environment

/-!
# Paint

Colors on a terminal. A painted text stands between the code of its paint and the code that takes
all paint away. Where a painted text holds the latter itself, the paint is put on again behind it.
-/

namespace SolidScript

/-- The numbers of the code that starts a paint. -/
structure Paint where
  codes : String
deriving DecidableEq, Repr

namespace Paint

def bold : Paint := ⟨"1"⟩

def cyan : Paint := ⟨"36"⟩

def yellow : Paint := ⟨"33"⟩

def green : Paint := ⟨"32"⟩

def gray : Paint := ⟨"90"⟩

def lightBlue : Paint := ⟨"94"⟩

def boldRed : Paint := ⟨"1;31"⟩

def boldYellow : Paint := ⟨"1;33"⟩

/-- The code that starts a paint. -/
def start (paint : Paint) : Text := '\x1b' :: '[' :: paint.codes.toList ++ ['m']

/-- The code that takes all paint away. -/
def reset : Text := ['\x1b', '[', '0', 'm']

/-- A text with something put behind every `reset` in it. -/
def afterResets (more : Text) : Text → Text
  | [] => []
  | '\x1b' :: '[' :: '0' :: 'm' :: r => reset ++ more ++ afterResets more r
  | c :: r => c :: afterResets more r

/-- A text in a color, if there are colors at all. -/
def apply (colors : Bool) (paint : Paint) (t : Text) : Text :=
  if colors then paint.start ++ afterResets paint.start t ++ reset else t

/-- There are colors if the variable `CLICOLOR_FORCE` holds a text other than `0`. Nothing else
turns them on where the output goes to no terminal. -/
def isForced (environment : Environment) : Bool :=
  match (environment "CLICOLOR_FORCE".toList).bind Utf8.decode? with
  | none => false
  | some t => t ≠ ['0']

end Paint

end SolidScript
