import SolidScript.Misfit
import SolidScript.Number.Scale
import SolidScript.Text.Hex
import SolidScript.Text.Utf8

/-!
# Lexemes

The smallest parts of a document: blanks, words, strings and numerals. A text is read from its
start, and each function returns what it has read together with the rest. What is wrong with a text
is one of three things: it breaks the rules of the format, it ends too early, or it is well formed
and holds the wrong thing. The first fault met is the one reported.
-/

namespace SolidScript

/-- Why a text is not read. -/
inductive ReadError where
  /-- The text breaks the rules of the format. -/
  | malformed
  /-- The text ends inside a value. -/
  | truncated
  /-- The text holds something else than it should. -/
  | misfit (cause : Misfit)
deriving DecidableEq, Repr

/-- A function that reads a value from the start of a text and returns the rest with it. -/
abbrev Reader (α : Type) := Text → Except ReadError (α × Text)

namespace Json

/-- Only these four characters may stand between lexemes. -/
def isBlank (c : Char) : Bool := c = ' ' || c = '\t' || c = '\n' || c = '\r'

def skipBlanks (t : Text) : Text := t.dropWhile isBlank

/-- The rest of a text that starts with the given word. -/
def expectWord : Text → Text → Except ReadError Text
  | [], t => .ok t
  | _ :: _, [] => .error .truncated
  | w :: ws, c :: r => if w = c then expectWord ws r else .error .malformed

/-- The rest of a text behind a colon. -/
def expectColon (t : Text) : Except ReadError Text :=
  match skipBlanks t with
  | [] => .error .truncated
  | c :: r => if c = ':' then .ok r else .error .malformed

/-! ## Strings -/

/-- Four digits in base sixteen. A text with less than four bytes left ends too early, whatever
these are. -/
def hexUnit : Reader Nat
  | a :: b :: c :: d :: r =>
    match Hex.value? a, Hex.value? b, Hex.value? c, Hex.value? d with
    | some a, some b, some c, some d => .ok (((a * 16 + b) * 16 + c) * 16 + d, r)
    | _, _, _, _ => .error .malformed
  | short => if Utf8.size short < 4 then .error .truncated else .error .malformed

def isHighHalf (n : Nat) : Bool := 0xD800 ≤ n && n ≤ 0xDBFF

def isLowHalf (n : Nat) : Bool := 0xDC00 ≤ n && n ≤ 0xDFFF

/-- The character of two halves. -/
def combineHalves (high low : Nat) : Char :=
  Char.ofNat (0x10000 + (high - 0xD800) * 0x400 + (low - 0xDC00))

/-- What follows `\u`. A character past the first 65536 is spelled by two halves, and a half does
not stand alone. -/
def unicodeEscape : Reader Char := fun t =>
  match hexUnit t with
  | .error e => .error e
  | .ok (n, r) =>
    if isLowHalf n then .error .malformed
    else if isHighHalf n then
      match r with
      | [] => .error .truncated
      | c :: r =>
        if c ≠ '\\' then .error .malformed
        else match r with
          | [] => .error .truncated
          | c :: r =>
            if c ≠ 'u' then .error .malformed
            else match hexUnit r with
              | .error e => .error e
              | .ok (m, r) =>
                if isLowHalf m then .ok (combineHalves n m, r) else .error .malformed
    else .ok (Char.ofNat n, r)

/-- The character of a backslash and one letter. -/
def shortEscape? : Char → Option Char
  | '"' => some '"'
  | '\\' => some '\\'
  | '/' => some '/'
  | 'b' => some '\x08'
  | 'f' => some '\x0c'
  | 'n' => some '\n'
  | 'r' => some '\r'
  | 't' => some '\t'
  | _ => none

/-- What follows a backslash. -/
def escape : Reader Char
  | [] => .error .truncated
  | c :: r =>
    if c = 'u' then unicodeEscape r
    else match shortEscape? c with
      | some e => .ok (e, r)
      | none => .error .malformed

/-- A string whose characters so far stand in `done` in reverse. `fuel` exceeds the length of the
text. -/
def stringFrom (fuel : Nat) (done : Text) (t : Text) : Except ReadError (Text × Text) :=
  match fuel, t with
  | 0, _ => .error .truncated
  | _ + 1, [] => .error .truncated
  | fuel + 1, c :: r =>
    if c = '"' then .ok (done.reverse, r)
    else if c = '\\' then
      match escape r with
      | .error e => .error e
      | .ok (e, r) => stringFrom fuel (e :: done) r
    else if c.toNat < 0x20 then .error .malformed
    else stringFrom fuel (c :: done) r

/-- A string behind its opening quote. `fuel` exceeds the length of the text. -/
def stringBody (fuel : Nat) : Reader Text := stringFrom fuel []

/-! ## Numerals -/

/-- A number as it is spelled. -/
structure Numeral where
  negative : Bool
  whole : Text
  fraction : Text
  exponent : Int
  /-- Neither a fraction nor an exponent is spelled. -/
  isWhole : Bool
deriving DecidableEq, Repr

def takeDigits (t : Text) : Text := t.takeWhile Char.isDigit

def dropDigits (t : Text) : Text := t.dropWhile Char.isDigit

/-- At least one digit. -/
def someDigits : Reader Text := fun t =>
  match takeDigits t, t with
  | [], [] => .error .truncated
  | [], _ :: _ => .error .malformed
  | ds, t => .ok (ds, dropDigits t)

/-- The digits before the point. A zero stands alone. -/
def wholeDigits : Reader Text := fun t =>
  match someDigits t with
  | .error e => .error e
  | .ok (ds, r) =>
    if ds.head? = some '0' ∧ ds.length ≠ 1 then .error .malformed else .ok (ds, r)

/-- The digits after the point, and none if there is no point. -/
def fractionDigits : Reader Text
  | [] => .ok ([], [])
  | c :: r => if c = '.' then someDigits r else .ok ([], c :: r)

/-- The digits of an exponent with their sign. -/
def signedExponent : Reader Int
  | [] => .error .truncated
  | c :: r =>
    match someDigits (if c = '+' ∨ c = '-' then r else c :: r) with
    | .error e => .error e
    | .ok (ds, r) => .ok (if c = '-' then -(ofDigits ds : Int) else ofDigits ds, r)

/-- The exponent, and none if there is no mark of one. -/
def exponentPart : Reader (Option Int)
  | [] => .ok (none, [])
  | c :: r =>
    if c = 'e' ∨ c = 'E' then
      match signedExponent r with
      | .error e => .error e
      | .ok (e, r) => .ok (some e, r)
    else .ok (none, c :: r)

/-- A numeral behind its sign. -/
def unsignedNumeral (negative : Bool) : Reader Numeral := fun t =>
  match wholeDigits t with
  | .error e => .error e
  | .ok (whole, r) =>
    match fractionDigits r with
    | .error e => .error e
    | .ok (fraction, r) =>
      match exponentPart r with
      | .error e => .error e
      | .ok (exponent, r) =>
        .ok (⟨negative, whole, fraction, exponent.getD 0, fraction = [] ∧ exponent = none⟩, r)

/-- A numeral, with or without a minus sign. -/
def numeral : Reader Numeral
  | [] => .error .truncated
  | c :: r => if c = '-' then unsignedNumeral true r else unsignedNumeral false (c :: r)

/-- The number that digits spell behind a number so far, up to the first digit with which it does
not fit into 64 bits any more, and the digits that are left. -/
def gather (n : Nat) : Text → Nat × Text
  | [] => (n, [])
  | c :: ds =>
    let next := 10 * n + digitValue c
    if next < UInt64.size then gather next ds else (n, c :: ds)

namespace Numeral

/-- The number that is spelled, as far as 64 bits hold its digits. Each digit that is left before
the point makes it ten times as great, and those that are left behind the point count for
nothing. -/
def kept (n : Numeral) : Decimal :=
  let (coefficient, skipped) := gather 0 n.whole
  let (coefficient, left) := gather coefficient n.fraction
  ⟨coefficient, n.exponent + skipped.length - (n.fraction.length - left.length : Nat)⟩

/-- The value of the number, if there is one: a number that is too great has none. -/
def value? (n : Numeral) : Option Binary64 := n.kept.scale? n.negative

/-- The whole number that is spelled, if it is one of 64 bits. A zero with a sign is none. -/
def integer? (n : Numeral) : Option Int :=
  let m := ofDigits n.whole
  if !n.isWhole then none
  else if n.negative then if 1 ≤ m ∧ m ≤ 0x8000000000000000 then some (-(m : Int)) else none
  else if m < UInt64.size then some m else none

end Numeral

/-- The value of a numeral. -/
def numberValue : Reader Binary64 := fun t =>
  match numeral t with
  | .error e => .error e
  | .ok (n, r) =>
    match n.value? with
    | some x => .ok (x, r)
    | none => .error .malformed

/-- A number as a message shows it: a whole number of 64 bits as such, any other by its value. -/
def numberFound : Reader Found := fun t =>
  match numeral t with
  | .error e => .error e
  | .ok (n, r) =>
    match n.integer?, n.value? with
    | some i, _ => .ok (.integer i, r)
    | none, some x => .ok (.float x, r)
    | none, none => .error .malformed

end Json

end SolidScript
