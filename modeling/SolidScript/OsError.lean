import SolidScript.Number.Decimal

/-!
# System errors

Why the system refuses something. The messages are those of the system, with its number of the
error behind them where it has one.
-/

namespace SolidScript

inductive OsError where
  | notFound
  | permissionDenied
  | notADirectory
  | isADirectory
  | brokenPipe
  | nameTooLong
  /-- A file that was read as a text is none. -/
  | notText
  /-- A name with a zero byte in it, which the system cannot be asked about. -/
  | zeroInName
  /-- Any other error, by its number and the words of the system. -/
  | other (code : Nat) (words : Text)
deriving DecidableEq, Repr

namespace OsError

/-- The words and the number of an error. -/
def numbered (words : Text) (code : Nat) : Text :=
  words ++ " (os error ".toList ++ digits code ++ [')']

def message : OsError → Text
  | .notFound => numbered "No such file or directory".toList 2
  | .permissionDenied => numbered "Permission denied".toList 13
  | .notADirectory => numbered "Not a directory".toList 20
  | .isADirectory => numbered "Is a directory".toList 21
  | .brokenPipe => numbered "Broken pipe".toList 32
  | .nameTooLong => numbered "File name too long".toList 36
  | .notText => "stream did not contain valid UTF-8".toList
  | .zeroInName => "file name contained an unexpected NUL byte".toList
  | .other code words => numbered words code

end OsError

end SolidScript
