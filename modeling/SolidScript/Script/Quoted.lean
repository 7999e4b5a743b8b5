import SolidScript.Text.Basic

/-!
# Quoted

Texts between double quotes in a script. Five characters are written as a backslash and a letter;
all others stand for themselves.
-/

namespace SolidScript.Quoted

/-- How one character is written between quotes. -/
def encodeChar : Char → Text
  | '\\' => ['\\', '\\']
  | '"' => ['\\', '"']
  | '\n' => ['\\', 'n']
  | '\t' => ['\\', 't']
  | '\r' => ['\\', 'r']
  | c => [c]

/-- A text as it stands between quotes. -/
def encode (t : Text) : Text := t.flatMap encodeChar

@[simp] theorem encode_nil : encode [] = [] := rfl

@[simp] theorem encode_cons (c : Char) (t : Text) : encode (c :: t) = encodeChar c ++ encode t := by
  simp [encode]

@[simp] theorem encode_append (s t : Text) : encode (s ++ t) = encode s ++ encode t := by
  simp [encode]

end SolidScript.Quoted
