import SolidScript.Text.Basic

/-!
# Flaws

What is wrong with a pattern as it is written, and how that is shown: the pattern, marks under the
part in question, and a sentence. A pattern of several lines is shown between two rules, and its
lines are numbered.
-/

namespace SolidScript.Pattern

/-- A place in a written pattern. Lines and columns are counted from one. -/
structure Position where
  line : Nat := 1
  column : Nat := 1
deriving DecidableEq, Repr

/-- The place behind a character at the given place. -/
def Position.after (p : Position) (c : Char) : Position :=
  if c = '\n' then ⟨p.line + 1, 1⟩ else { p with column := p.column + 1 }

/-- A part of a written pattern, from its start to the place behind it. -/
structure Span where
  start : Position
  stop : Position
deriving DecidableEq, Repr

namespace Span

/-- No part, but the place where one is missing. -/
def empty (p : Position) : Span := ⟨p, p⟩

def isOneLine (s : Span) : Bool := s.start.line = s.stop.line

/-- The part starts before another. -/
def precedes (s r : Span) : Bool :=
  s.start.line < r.start.line || (s.start.line = r.start.line && s.start.column < r.start.column)

end Span

inductive Flaw.Kind where
  | bracketEscape
  | rangeOrder
  | rangeBound
  | bracketOpen
  | numberMissing
  | numberTooLarge
  | hexMissing
  | hexNoCharacter
  | hexDigit
  | escapeCut
  | escapeUnknown
  | flagMinusLast
  | flagTwice
  | flagMinusTwice
  | flagsCut
  | flagUnknown
  | nameTwice
  | nameMissing
  | nameCharacter
  | nameCut
  | groupOpen
  | groupClosing
  | countOrder
  | countMissing
  | countOpen
  | repetitionOfNothing
  | edgeOpen
  | edgeUnknown
  | edgeCut
  | propertySpelling
  | backreference
  | lookAround
  /-- The part would fit bytes that are no text. -/
  | noText
  | beyondAscii
  | propertyUnknown
  | propertyValueUnknown
  /-- Digits, blanks and word characters are known for ASCII alone. -/
  | shorthandBeyondAscii
  /-- Upper and lower case are known for ASCII alone. -/
  | caseBeyondAscii
deriving DecidableEq, Repr

/-- What is wrong with a pattern. -/
inductive Flaw where
  /-- A part of the pattern is wrong, perhaps because of an earlier one. -/
  | part (kind : Flaw.Kind) (span : Span) (earlier : Option Span)
  /-- The pattern asks for edges of words, and these are known for ASCII alone. -/
  | edgeBeyondAscii
deriving DecidableEq, Repr

namespace Flaw

/-- What is wrong, as a sentence. -/
def Kind.sentence : Kind → String
  | bracketEscape => "invalid escape sequence found in character class"
  | rangeOrder => "invalid character class range, the start must be <= the end"
  | rangeBound => "invalid range boundary, must be a literal"
  | bracketOpen => "unclosed character class"
  | numberMissing => "decimal literal empty"
  | numberTooLarge => "decimal literal invalid"
  | hexMissing => "hexadecimal literal empty"
  | hexNoCharacter => "hexadecimal literal is not a Unicode scalar value"
  | hexDigit => "invalid hexadecimal digit"
  | escapeCut => "incomplete escape sequence, reached end of pattern prematurely"
  | escapeUnknown => "unrecognized escape sequence"
  | flagMinusLast => "dangling flag negation operator"
  | flagTwice => "duplicate flag"
  | flagMinusTwice => "flag negation operator repeated"
  | flagsCut => "expected flag but got end of regex"
  | flagUnknown => "unrecognized flag"
  | nameTwice => "duplicate capture group name"
  | nameMissing => "empty capture group name"
  | nameCharacter => "invalid capture group character"
  | nameCut => "unclosed capture group name"
  | groupOpen => "unclosed group"
  | groupClosing => "unopened group"
  | countOrder => "invalid repetition count range, the start must be <= the end"
  | countMissing => "repetition quantifier expects a valid decimal"
  | countOpen => "unclosed counted repetition"
  | repetitionOfNothing => "repetition operator missing expression"
  | edgeOpen =>
    "special word boundary assertion is either unclosed or contains an invalid character"
  | edgeUnknown => "unrecognized special word boundary assertion, " ++
    "valid choices are: start, end, start-half or end-half"
  | edgeCut => "found either the beginning of a special word boundary " ++
    "or a bounded repetition on a \\b with an opening brace, but no closing brace"
  | propertySpelling => "invalid Unicode character class"
  | backreference => "backreferences are not supported"
  | lookAround => "look-around, including look-ahead and look-behind, is not supported"
  | noText => "pattern can match invalid UTF-8"
  | beyondAscii => "Unicode not allowed here"
  | propertyUnknown => "Unicode property not found"
  | propertyValueUnknown => "Unicode property value not found"
  | shorthandBeyondAscii => "Unicode-aware Perl class not found " ++
    "(make sure the unicode-perl feature is enabled)"
  | caseBeyondAscii => "Unicode-aware case insensitivity matching is not available " ++
    "(make sure the unicode-case feature is enabled)"

/-- The lines of a pattern. A carriage return before a line feed belongs to no line. -/
def lines (pattern : Text) : List Text :=
  let pieces := Text.split pattern
  let whole := pieces.dropLast.map fun l => if l.getLast? = some '\r' then l.dropLast else l
  whole ++ pieces.getLast?.toList.filter (· ≠ [])

/-- Marks under some parts of a line, in ascending order. A part without characters has one mark as
well. -/
def marks (parts : List Span) : Text :=
  parts.foldl (fun line s =>
    line ++ List.replicate (s.start.column - 1 - line.length) ' '
      ++ List.replicate (max 1 (s.stop.column - s.start.column)) '^') []

/-- A number in `width` columns, blanks first. -/
def padded (width n : Nat) : Text :=
  let digits := Nat.toDigits 10 n
  List.replicate (width - digits.length) ' ' ++ digits

/-- The lines of a pattern, numbered from `n` in `width` columns, or moved to the right if the width
is zero, and below each the marks of the parts in it. -/
def markedFrom (width n : Nat) (parts : List Span) : List Text → Text
  | [] => []
  | l :: ls =>
    let margin := if width = 0 then List.replicate 4 ' ' else padded width n ++ ": ".toList
    let here := parts.filter fun s => s.start.line = n
    let below := if here.isEmpty then []
      else Text.line (List.replicate margin.length ' ' ++ marks here)
    Text.line (margin ++ l) ++ below ++ markedFrom width (n + 1) parts ls

/-- A part of several lines, in words. -/
def spanInWords (s : Span) : Text :=
  let place (line column : Nat) : Text :=
    Nat.toDigits 10 line ++ " (column ".toList ++ Nat.toDigits 10 column ++ [')']
  "on line ".toList ++ place s.start.line s.start.column
    ++ " through line ".toList ++ place s.stop.line (s.stop.column - 1)

/-- The rule above and below a pattern of several lines. -/
def rule : Text := Text.line (List.replicate 79 '~')

/-- The parts that a flaw is about, in ascending order. -/
def parts (span : Span) : Option Span → List Span
  | none => [span]
  | some earlier => if span.precedes earlier then [span, earlier] else [earlier, span]

/-- A flaw of a pattern, as it is shown. -/
def message (pattern : Text) : Flaw → Text
  | edgeBeyondAscii => "error building NFA".toList
  | part kind span earlier =>
    let parts := parts span earlier
    let inLine := parts.filter Span.isOneLine
    let others := parts.filter fun s => !s.isOneLine
    let count := (Text.split pattern).length
    let body :=
      if count ≤ 1 then markedFrom 0 1 inLine (lines pattern)
      else rule ++ markedFrom (Nat.toDigits 10 count).length 1 inLine (lines pattern) ++ rule
        ++ (if others.isEmpty then [] else Text.line (Text.join (others.map spanInWords)))
    Text.line "regex parse error:".toList ++ body ++ "error: ".toList ++ kind.sentence.toList

/-- A part without characters is marked where it is missing. -/
example : String.ofList (message "a|*".toList
    (part .repetitionOfNothing (Span.empty ⟨1, 3⟩) none))
    = "regex parse error:\n    a|*\n      ^\nerror: repetition operator missing expression" := by
  decide +kernel

end Flaw

end SolidScript.Pattern
