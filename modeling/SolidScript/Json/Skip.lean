import SolidScript.Json.Lexeme

/-!
# Skipping

Values that nobody asks for. They have to be well formed, but their numbers may be of any size,
their nesting may be of any depth, and the halves of characters in their strings are not paired.
-/

namespace SolidScript.Json

/-- The rest behind a string whose opening quote is read. `fuel` exceeds the length of the text. -/
def skipString (fuel : Nat) (t : Text) : Except ReadError Text :=
  match fuel, t with
  | 0, _ => .error .truncated
  | _ + 1, [] => .error .truncated
  | fuel + 1, c :: r =>
    if c = '"' then .ok r
    else if c = '\\' then
      match r with
      | [] => .error .truncated
      | e :: r =>
        if e = 'u' then
          match hexUnit r with
          | .error e => .error e
          | .ok (_, r) => skipString fuel r
        else if (shortEscape? e).isSome then skipString fuel r
        else .error .malformed
    else if c.toNat < 0x20 then .error .malformed
    else skipString fuel r

/-- The rest behind a numeral. One that ends too early counts as malformed here. -/
def skipNumeral (t : Text) : Except ReadError Text :=
  match numeral t with
  | .error _ => .error .malformed
  | .ok (_, r) => .ok r

/-- The rest behind a key and its colon. -/
def skipKey (fuel : Nat) (t : Text) : Except ReadError Text :=
  match skipBlanks t with
  | [] => .error .truncated
  | c :: r =>
    if c ≠ '"' then .error .malformed
    else match skipString fuel r with
      | .error e => .error e
      | .ok r => expectColon r

/-- The rest behind a value without brackets. -/
def skipScalar (fuel : Nat) (c : Char) (r : Text) : Except ReadError Text :=
  if c = '"' then skipString fuel r
  else if c = 'n' then expectWord "ull".toList r
  else if c = 't' then expectWord "rue".toList r
  else if c = 'f' then expectWord "alse".toList r
  else if c = '-' ∨ c.isDigit then skipNumeral (c :: r)
  else .error .malformed

/-- A bracket that is still open. -/
inductive Bracket where
  | array
  | object
deriving DecidableEq, Repr

def Bracket.closing : Bracket → Char
  | .array => ']'
  | .object => '\x7d'

/-- The rest behind the value at the start of a text and behind all brackets that are open around
it, the innermost first. `behind` says that the value is read already. `fuel` exceeds the length of
the text by two at least. -/
def skipFrom (fuel : Nat) (behind : Bool) (around : List Bracket) (t : Text) :
    Except ReadError Text :=
  match fuel with
  | 0 => .error .truncated
  | fuel + 1 =>
    if behind then
      match around with
      | [] => .ok t
      | b :: outer =>
        match skipBlanks t with
        | [] => .error .truncated
        | c :: r =>
          if c = b.closing then skipFrom fuel true outer r
          else if c ≠ ',' then .error .malformed
          else match b with
            | .array => skipFrom fuel false around r
            | .object =>
              match skipKey fuel r with
              | .error e => .error e
              | .ok r => skipFrom fuel false around r
    else
      match skipBlanks t with
      | [] => .error .truncated
      | c :: r =>
        if c = '[' then
          match skipBlanks r with
          | [] => .error .truncated
          | d :: s =>
            if d = ']' then skipFrom fuel true around s
            else skipFrom fuel false (.array :: around) r
        else if c = '\x7b' then
          match skipBlanks r with
          | [] => .error .truncated
          | d :: s =>
            if d = '\x7d' then skipFrom fuel true around s
            else match skipKey fuel r with
              | .error e => .error e
              | .ok r => skipFrom fuel false (.object :: around) r
        else match skipScalar fuel c r with
          | .error e => .error e
          | .ok r => skipFrom fuel true around r

/-- The rest behind the value at the start of a text. `fuel` exceeds the length of the text. -/
def skipValue (fuel : Nat) (t : Text) : Except ReadError Text := skipFrom (fuel + 1) false [] t

end SolidScript.Json
