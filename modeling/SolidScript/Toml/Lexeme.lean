import SolidScript.Text.Hex
import SolidScript.Toml

/-!
# Lexemes

The smallest parts of a settings file: blanks, comments, strings and keys. Each function reads from
the start of a text and returns what it has read together with the rest, or nothing if the text does
not start with such a part.
-/

namespace SolidScript.Toml

/-- A function that reads a value from the start of a text and returns the rest with it. -/
abbrev Scan (α : Type) := Text → Option (α × Text)

/-! ## Blanks and comments -/

def isSpace (c : Char) : Bool := c = ' ' || c = '\t'

def skipSpaces (t : Text) : Text := t.dropWhile isSpace

/-- A character that may stand in a comment: all but the controls, and of these the tab. -/
def isPlain (c : Char) : Bool := c = '\t' || (0x20 ≤ c.toNat && c.toNat ≠ 0x7F)

/-- The rest behind the end of a line. A carriage return counts only before a line feed. -/
def newline? : Text → Option Text
  | '\n' :: r => some r
  | '\r' :: '\n' :: r => some r
  | _ => none

/-- The rest behind a comment, or the whole text if it starts with none. -/
def skipComment : Text → Text
  | '#' :: r => r.dropWhile isPlain
  | t => t

/-- The rest behind a line on which nothing but a comment follows. -/
def lineEnd? (t : Text) : Option Text :=
  match skipComment (skipSpaces t) with
  | [] => some []
  | c :: r => newline? (c :: r)

/-- What follows blanks, ends of lines and comments. `comment` says that one is open. -/
def skipGaps (comment : Bool) : Text → Text
  | [] => []
  | '\n' :: r => skipGaps false r
  | '\r' :: '\n' :: r => skipGaps false r
  | c :: r =>
    if comment then if isPlain c then skipGaps true r else c :: r
    else if isSpace c then skipGaps false r
    else if c = '#' then skipGaps true r
    else c :: r

/-- What follows blanks and ends of lines. -/
def skipBlankLines : Text → Text
  | [] => []
  | '\n' :: r => skipBlankLines r
  | '\r' :: '\n' :: r => skipBlankLines r
  | c :: r => if isSpace c then skipBlankLines r else c :: r

/-! ## Strings -/

/-- A number of exactly `count` digits in base sixteen, put behind `n`. -/
def hexFrom (n : Nat) : Nat → Scan Nat
  | 0, t => some (n, t)
  | _ + 1, [] => none
  | count + 1, c :: r =>
    match Hex.value? c with
    | none => none
    | some d => hexFrom (16 * n + d) count r

/-- The character of a code point that is spelled in base sixteen. -/
def codePoint (count : Nat) : Scan Char := fun t =>
  match hexFrom 0 count t with
  | none => none
  | some (n, r) => if n.isValidChar then some (Char.ofNat n, r) else none

/-- The character of a backslash and one letter. -/
def shortEscape? : Char → Option Char
  | '"' => some '"'
  | '\\' => some '\\'
  | 'b' => some '\x08'
  | 'f' => some '\x0c'
  | 'n' => some '\n'
  | 'r' => some '\r'
  | 't' => some '\t'
  | _ => none

/-- What follows a backslash. -/
def escape : Scan Char
  | [] => none
  | 'u' :: r => codePoint 4 r
  | 'U' :: r => codePoint 8 r
  | c :: r => (shortEscape? c).map fun e => (e, r)

/-- A string on one line whose characters so far stand in `done` in reverse. `fuel` exceeds the
length of the text. -/
def basicFrom (fuel : Nat) (done : Text) (t : Text) : Option (Text × Text) :=
  match fuel, t with
  | 0, _ => none
  | _ + 1, [] => none
  | fuel + 1, c :: r =>
    if c = '"' then some (done.reverse, r)
    else if c = '\\' then
      match escape r with
      | none => none
      | some (e, r) => basicFrom fuel (e :: done) r
    else if isPlain c then basicFrom fuel (c :: done) r
    else none

/-- The end of a string between triple marks: up to two more marks before the closing three belong
to the string. Fewer than three marks in a row do not end it. -/
def closing? (mark : Char) (t : Text) : Option (Text × Text) :=
  let marks := (t.takeWhile (· = mark)).length
  if marks < 3 then none
  else
    let inside := min (marks - 3) 2
    some (List.replicate inside mark, t.drop (inside + 3))

/-- A string on several lines. A backslash at the end of a line joins it to the next text, and
every end of a line is a line feed. -/
def multilineBasicFrom (fuel : Nat) (done : Text) (t : Text) : Option (Text × Text) :=
  match fuel, t with
  | 0, _ => none
  | _ + 1, [] => none
  | fuel + 1, c :: r =>
    match closing? '"' (c :: r), newline? (c :: r) with
    | some (marks, r), _ => some (done.reverse ++ marks, r)
    | none, some r => multilineBasicFrom fuel ('\n' :: done) r
    | none, none =>
      if c = '\\' then
        match newline? (skipSpaces r) with
        | some r => multilineBasicFrom fuel done (skipBlankLines r)
        | none =>
          match escape r with
          | none => none
          | some (e, r) => multilineBasicFrom fuel (e :: done) r
      else if isPlain c then multilineBasicFrom fuel (c :: done) r
      else none

/-- A string on several lines without escapes. -/
def multilineLiteralFrom (fuel : Nat) (done : Text) (t : Text) : Option (Text × Text) :=
  match fuel, t with
  | 0, _ => none
  | _ + 1, [] => none
  | fuel + 1, c :: r =>
    match closing? '\'' (c :: r), newline? (c :: r) with
    | some (marks, r), _ => some (done.reverse ++ marks, r)
    | none, some r => multilineLiteralFrom fuel ('\n' :: done) r
    | none, none => if isPlain c then multilineLiteralFrom fuel (c :: done) r else none

/-- A string without escapes, behind its opening mark. -/
def literal : Scan Text := fun t =>
  match t.dropWhile fun c => isPlain c && c ≠ '\'' with
  | '\'' :: r => some (t.takeWhile fun c => isPlain c && c ≠ '\'', r)
  | _ => none

/-- The rest behind an end of a line, if the text starts with one. -/
def dropNewline (t : Text) : Text := (newline? t).getD t

/-- A string between any of the four marks. -/
def quoted : Scan Text
  | '"' :: '"' :: '"' :: r => multilineBasicFrom (r.length + 1) [] (dropNewline r)
  | '\'' :: '\'' :: '\'' :: r => multilineLiteralFrom (r.length + 1) [] (dropNewline r)
  | '"' :: r => basicFrom (r.length + 1) [] r
  | '\'' :: r => literal r
  | _ => none

/-! ## Keys -/

/-- A character of a key without quotes. -/
def isBare (c : Char) : Bool := c.isAlphanum || c = '_' || c = '-'

/-- One name of a key. -/
def name : Scan Text
  | '"' :: r => basicFrom (r.length + 1) [] r
  | '\'' :: r => literal r
  | t =>
    if (t.takeWhile isBare).isEmpty then none
    else some (t.takeWhile isBare, t.dropWhile isBare)

/-- The names of a key, those so far standing in `path` in reverse. `fuel` bounds their number. -/
def keyFrom (fuel : Nat) (path : List Text) (t : Text) : Option (Key × Text) :=
  match fuel with
  | 0 => none
  | fuel + 1 =>
    match name (skipSpaces t) with
    | none => none
    | some (n, r) =>
      match skipSpaces r with
      | '.' :: r => keyFrom fuel (n :: path) r
      | r => some (⟨path.reverse, n⟩, r)

/-- The number of names that a key may have. -/
def keyLength : Nat := 79

def key : Scan Key := keyFrom keyLength []

end SolidScript.Toml
