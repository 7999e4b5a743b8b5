import SolidScript.Pattern.Reader
import SolidScript.Text.Hex

/-!
# Escapes

What a backslash and the characters behind it stand for.
-/

namespace SolidScript.Pattern.Reader

/-- A number of exactly `count` digits in base sixteen, put behind `n`. -/
def hexFrom (count n : Nat) : Reader Nat := do
  match count with
  | 0 => return n
  | count + 1 =>
    match ← head? with
    | none => fail .escapeCut (.empty (← here))
    | some c =>
      match Hex.value? c with
      | none => fail .hexDigit (← headSpan)
      | some d =>
        step
        hexFrom count (16 * n + d)

/-- The character of a code point that is spelled between the given places. -/
def charOf (n : Nat) (spelling span : Span) (isByte : Bool) : Reader Literal :=
  if n.isValidChar then return ⟨span, Char.ofNat n, isByte⟩ else fail .hexNoCharacter spelling

/-- The digits in base sixteen up to a closing brace, behind the opening one. -/
def hexDigitsFrom (fuel : Nat) (brace : Position) : Reader (List Nat) := do
  match fuel, ← head? with
  | 0, _ | _, none => fail .escapeCut (← since brace)
  | fuel + 1, some c =>
    if c = '\x7d' then return []
    match Hex.value? c with
    | none => fail .hexDigit (← headSpan)
    | some d =>
      step
      return d :: (← hexDigitsFrom fuel brace)

/-- A character between braces, by its code point. -/
def bracedChar (start : Position) : Reader Literal := do
  let brace ← here
  let first := (← headSpan).stop
  step
  let digits ← hexDigitsFrom (← fuel) brace
  let last ← here
  step
  if digits.isEmpty then fail .hexMissing (← since brace)
  charOf (digits.foldl (fun n d => 16 * n + d) 0) ⟨first, last⟩ (← since start) false

/-- A character by its code point, which has `count` digits or stands between braces. -/
def codePoint (start : Position) (count : Nat) : Reader Literal := do
  step
  match ← head? with
  | none => fail .escapeCut (.empty (← here))
  | some '\x7b' => bracedChar start
  | some _ =>
    let first ← here
    let n ← hexFrom count 0
    charOf n (← since first) (← since start) (count = 2)

/-- The name of a property up to a closing brace, behind the opening one. -/
def nameFrom (fuel : Nat) : Reader Text := do
  match fuel, ← head? with
  | 0, _ | _, none => fail .escapeCut (.empty (← here))
  | fuel + 1, some c =>
    if c = '\x7d' then return []
    step
    return c :: (← nameFrom fuel)

/-- A class of characters by a property: a letter, or a name between braces. -/
def property (start : Position) : Reader Atom := do
  step
  match ← head? with
  | none => fail .escapeCut (.empty (← here))
  | some '\x7b' =>
    step
    let name ← nameFrom (← fuel)
    advance
    return .property (← since start) name
  | some '\\' => fail .propertySpelling (← headSpan)
  | some c =>
    step
    return .property (← since start) [c]

/-- A character of the name of an edge. -/
def isEdgeChar (c : Char) : Bool := c.isAlpha || c = '-'

/-- The edge of a word by its name between braces, if that is what the opening brace here begins.
It may also begin a number of repetitions. -/
def namedEdge? (start : Position) : Reader (Option Place) := do
  let input ← get
  let brace ← here
  step
  let first ← here
  match ← head? with
  | none => fail .edgeCut (← since start)
  | some c =>
    if !isEdgeChar c then
      set input
      return none
    let name ← takeRun isEdgeChar (← fuel)
    if (← head?) ≠ some '\x7d' then fail .edgeOpen (← since brace)
    let last ← here
    advance
    match String.ofList name with
    | "start" => return some .wordStart
    | "end" => return some .wordEnd
    | "start-half" => return some .wordStartHalf
    | "end-half" => return some .wordEndHalf
    | _ => fail .edgeUnknown ⟨first, last⟩

/-- An edge of a word behind the letter that stands for it. -/
def edge (start : Position) : Reader Atom := do
  let letter ← since start
  if (← head?) = some '\x7b' then
    match ← namedEdge? start with
    | none => return .place letter .wordEdge
    | some place => return .place (← since start) place
  return .place letter .wordEdge

/-- The control character of a letter. -/
def control? : Char → Option Char
  | 'a' => some '\x07'
  | 'f' => some '\x0c'
  | 't' => some '\t'
  | 'n' => some '\n'
  | 'r' => some '\r'
  | 'v' => some '\x0b'
  | _ => none

/-- The condition on a place of a letter or sign. -/
def place? : Char → Option Place
  | 'A' => some .textStart
  | 'z' => some .textEnd
  | 'B' => some .noWordEdge
  | '<' => some .wordStart
  | '>' => some .wordEnd
  | _ => none

def shorthand? : Char → Option Shorthand
  | 'd' | 'D' => some .digit
  | 's' | 'S' => some .space
  | 'w' | 'W' => some .word
  | _ => none

/-- A sign of ASCII that stands for itself behind a backslash. -/
def isSign (c : Char) : Bool :=
  c.toNat < 0x80 && !c.isAlphanum && c ≠ '<' && c ≠ '>'

/-- What is read behind a backslash and one character, which is passed over. -/
def shortEscape (start : Position) (c : Char) : Reader Atom := do
  advance
  let span ← since start
  if isSign c then return .literal ⟨span, c, false⟩
  if c = 'b' then return ← edge start
  match control? c, shorthand? c, place? c with
  | some e, _, _ => return .literal ⟨span, e, false⟩
  | _, some name, _ => return .shorthand span name c.isUpper
  | _, _, some place => return .place span place
  | _, _, _ => fail .escapeUnknown span

/-- What a backslash here and the characters behind it stand for. -/
def escape : Reader Atom := do
  let start ← here
  advance
  match ← head? with
  | none => fail .escapeCut (← since start)
  | some c =>
    if c.isDigit then fail .backreference ⟨start, (← headSpan).stop⟩
    match c with
    | 'x' => return .literal (← codePoint start 2)
    | 'u' => return .literal (← codePoint start 4)
    | 'U' => return .literal (← codePoint start 8)
    | 'p' | 'P' => property start
    | c => shortEscape start c

end SolidScript.Pattern.Reader
