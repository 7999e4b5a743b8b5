import SolidScript.Fault
import SolidScript.Host

/-!
# Clipboard

A text goes to the clipboard through the first clipboard tool that is there. A tool that is there
and fails is not followed by another, so no text is delivered twice.
-/

namespace SolidScript.Clipboard

/-- A program that copies what it reads, with the arguments that make it do so. -/
structure Copier where
  program : Text
  arguments : List Text
deriving DecidableEq, Repr

/-- The tools, in the order in which they are tried. -/
def copiers : List Copier :=
  [⟨"pbcopy".toList, []⟩,
    ⟨"wl-copy".toList, []⟩,
    ⟨"xclip".toList, ["-selection".toList, "clipboard".toList]⟩,
    ⟨"xsel".toList, ["--clipboard".toList, "--input".toList]⟩,
    ⟨"clip".toList, []⟩]

variable {m : Type → Type} [Monad m] [Host m]

def copied (size : Nat) (program : Text) : Record where
  level := .debug
  source := "scadkit::io::sink"
  message := "copied ".toList ++ digits size ++ " bytes to clipboard with ".toList ++ program

/-- Copies a text with the first of the given tools that is there. -/
def copyWith (t : Text) : List Copier → ExceptT Fault m Unit
  | [] => throw .noClipboard
  | copier :: others => do
    match ← Host.feed (m := m) copier.program copier.arguments (Utf8.encode t) with
    | .notStarted .notFound => copyWith t others
    | .notStarted cause => throw (.launch copier.program cause)
    | .brokenOff cause => throw (.launch copier.program cause)
    | .ended status =>
      if status.isSuccess then Host.log (m := m) (copied (Utf8.size t) copier.program)
      else throw (.exit copier.program status)

/-- Copies a text to the clipboard. -/
def copy (t : Text) : ExceptT Fault m Unit := copyWith t copiers

end SolidScript.Clipboard
