import SolidScript.Text.Basic
import SolidScript.Text.Hidden

/-!
# Shown

Texts between double quotes in a message, so that every character can be seen.
-/

namespace SolidScript.Text

/-- The digits of a code point in base sixteen. -/
def codePoint (c : Char) : Text := Nat.toDigits 16 c.toNat

/-- How one character is shown. -/
def showChar (c : Char) : Text :=
  match c with
  | '\x00' => ['\\', '0']
  | '\t' => ['\\', 't']
  | '\r' => ['\\', 'r']
  | '\n' => ['\\', 'n']
  | '\\' => ['\\', '\\']
  | '"' => ['\\', '"']
  | c => if isHidden c then '\\' :: 'u' :: '\x7b' :: codePoint c ++ ['\x7d'] else [c]

/-- A text as a message shows it. -/
def shown (t : Text) : Text := '"' :: t.flatMap showChar ++ ['"']

/-- A quote, a line feed and a zero-width space. -/
example : shown "a\"\n\u200bä".toList = "\"a\\\"\\n\\u\x7b200b\x7dä\"".toList := by decide +kernel

end SolidScript.Text
