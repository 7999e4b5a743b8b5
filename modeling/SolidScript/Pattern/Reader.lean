import SolidScript.Pattern.Tree
import SolidScript.Text.Blank

/-!
# Reading written patterns

Steps through a written pattern, one character at a time. A reader knows where it is, so that it can
say where a flaw is.
-/

namespace SolidScript.Pattern

/-- What is still to be read of a pattern. -/
structure Input where
  rest : Text
  position : Position := {}
  /-- Blanks and comments do not count. -/
  loose : Bool := false
  /-- The names of groups so far. -/
  names : List (Text × Span) := []
deriving DecidableEq, Repr

/-- What follows blanks and comments, and where. `comment` says that one is open. -/
def behindBlanks (comment : Bool) (p : Position) : Text → Position × Text
  | [] => (p, [])
  | c :: r =>
    if comment then behindBlanks (c ≠ '\n') (p.after c) r
    else if Text.isBlank c then behindBlanks false (p.after c) r
    else if c = '#' then behindBlanks true (p.after c) r
    else (p, c :: r)

namespace Input

/-- The input behind its first character. -/
def next (input : Input) : Input :=
  match input.rest with
  | [] => input
  | c :: r => { input with rest := r, position := input.position.after c }

/-- The input behind the blanks at its start, if these do not count. -/
def trimmed (input : Input) : Input :=
  if input.loose then
    let (p, r) := behindBlanks false input.position input.rest
    { input with rest := r, position := p }
  else input

/-- The first character, as a part of the pattern. -/
def headSpan (input : Input) : Span := ⟨input.position, input.next.position⟩

/-- The character behind the first one. Where blanks do not count, they and the start of a comment
are passed over. -/
def second? (input : Input) : Option Char :=
  match input.rest with
  | [] => none
  | _ :: r =>
    if input.loose then
      match r.dropWhile Text.isBlank with
      | '#' :: r => (r.dropWhile Text.isBlank).head?
      | r => r.head?
    else r.head?

end Input

abbrev Reader := StateT Input (Except Flaw)

namespace Reader

variable {α : Type}

def fail (kind : Flaw.Kind) (span : Span) : Reader α := throw (.part kind span none)

/-- The next character, which stays there. -/
def head? : Reader (Option Char) := return (← get).rest.head?

def here : Reader Position := return (← get).position

/-- The number of characters to come, and one. -/
def fuel : Reader Nat := return (← get).rest.length + 1

/-- The part from a place up to here. -/
def since (start : Position) : Reader Span := return ⟨start, ← here⟩

/-- The next character as a part of the pattern. -/
def headSpan : Reader Span := return (← get).headSpan

/-- Passes over the next character. -/
def advance : Reader Unit := modify Input.next

/-- Passes over blanks that do not count. -/
def trim : Reader Unit := modify Input.trimmed

/-- Passes over the next character and over blanks that do not count. -/
def step : Reader Unit := do
  advance
  trim

/-- Passes over a word, if it comes next. -/
def take (word : Text) : Reader Bool := do
  if word.isPrefixOf (← get).rest then
    modify fun input => word.foldl (fun input _ => input.next) input
    return true
  return false

/-- The characters of a kind that come next, without blanks that do not count. `fuel` exceeds the
number of characters to come. -/
def takeRun (test : Char → Bool) (fuel : Nat) : Reader Text := do
  match fuel, ← head? with
  | fuel + 1, some c =>
    if test c then
      step
      return c :: (← takeRun test fuel)
    return []
  | _, _ => return []

end Reader

end SolidScript.Pattern
