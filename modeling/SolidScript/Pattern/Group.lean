import SolidScript.Pattern.Bracket
import SolidScript.Text.Hidden

/-!
# Groups

Whole written patterns: rows of parts, choices between rows, groups of choices, and repetitions of
the part before them.
-/

namespace SolidScript.Pattern

/-- The rows of a choice so far, the last of them still open. Rows and parts stand in reverse. -/
structure Tree.Rows where
  done : List Tree := []
  row : List Tree := []
deriving DecidableEq, Repr

/-- One part more in the open row. -/
def Tree.Rows.add (rows : Rows) (t : Tree) : Rows := { rows with row := t :: rows.row }

/-- The open row is done, and another begins. -/
def Tree.Rows.next (rows : Rows) : Rows := { done := inRow rows.row.reverse :: rows.done }

/-- The choice between all rows. -/
def Tree.Rows.whole (rows : Rows) : Tree := choice rows.done.reverse (inRow rows.row.reverse)

/-- A group that is still open. -/
structure Tree.Open where
  span : Span
  flags : Flags
  /-- Blanks do not count around the group. -/
  loose : Bool
  /-- What stands before the group. -/
  outer : Rows
deriving DecidableEq, Repr

namespace Reader

def flag? : Char → Option Flag
  | 'i' => some .anyCase
  | 'm' => some .lines
  | 's' => some .dotAll
  | 'U' => some .lazily
  | 'u' => some .unicode
  | 'R' => some .returns
  | 'x' => some .loose
  | _ => none

/-- Flags up to a colon or a closing bracket, with the place of each in `read`, the last first. A
minus sign has a place and no flag. -/
def flagsFrom (fuel : Nat) (read : List (Option Flag × Span)) : Reader Flags := do
  match fuel, ← head? with
  | 0, _ | _, none => fail .flagsCut (.empty (← here))
  | fuel + 1, some c =>
    if c = ':' || c = ')' then
      if let (none, span) :: _ := read then fail .flagMinusLast span
      let flags := read.reverse.map (·.1)
      return {
        on := (flags.takeWhile (·.isSome)).filterMap id
        off := (flags.dropWhile (·.isSome)).filterMap id }
    let span ← headSpan
    let flag := flag? c
    if c ≠ '-' && flag.isNone then fail .flagUnknown span
    match read.lookup flag with
    | some earlier =>
      throw (.part (if flag.isNone then .flagMinusTwice else .flagTwice) span (some earlier))
    | none =>
      advance
      flagsFrom fuel ((flag, span) :: read)

/-- A character of the name of a group. Beyond ASCII every visible character may stand in a name. -/
def isNameChar (first : Bool) (c : Char) : Bool :=
  c = '_' || c.isAlpha || (0x80 ≤ c.toNat && !Text.isHidden c)
    || (!first && (c.isDigit || c = '.' || c = '[' || c = ']'))

/-- The rest of the name of a group, up to the closing sign. -/
def groupNameFrom (fuel : Nat) (first : Bool) : Reader Text := do
  match fuel, ← head? with
  | 0, _ | _, none => fail .nameCut (.empty (← here))
  | fuel + 1, some c =>
    if c = '>' then return []
    if !isNameChar first c then fail .nameCharacter (← headSpan)
    advance
    return c :: (← groupNameFrom fuel false)

/-- The name of a group. No two groups have one name. -/
def groupName : Reader Unit := do
  let start ← here
  let name ← groupNameFrom (← fuel) true
  let span ← since start
  advance
  if name.isEmpty then fail .nameMissing (.empty start)
  match (← get).names.lookup name with
  | some earlier => throw (.part .nameTwice span (some earlier))
  | none => modify fun input => { input with names := (name, span) :: input.names }

/-- Passes over the first of some words that comes next. -/
def takeAny : List Text → Reader Bool
  | [] => return false
  | word :: words => do
    if ← take word then return true
    takeAny words

/-- The flags of the group that begins here, or flags in brackets by themselves, for what follows
in the group around them. -/
def opening (outer : Tree.Rows) : Reader (Tree.Open ⊕ Flags) := do
  let span ← headSpan
  let loose := (← get).loose
  step
  if ← takeAny ["?=".toList, "?!".toList, "?<=".toList, "?<!".toList] then
    fail .lookAround (← since span.start)
  let mark ← here
  if ← takeAny ["?P<".toList, "?<".toList] then
    groupName
    return .inl ⟨span, {}, loose, outer⟩
  if ← take ['?'] then
    if (← head?).isNone then fail .groupOpen span
    let flags ← flagsFrom (← fuel) []
    let last ← head?
    advance
    if last = some ':' then return .inl ⟨span, flags, loose, outer⟩
    if flags = {} then fail .repetitionOfNothing (.empty mark)
    return .inr flags
  return .inl ⟨span, {}, loose, outer⟩

/-- Blanks count from here on as the flags say, if they say it. -/
def setLoose (flags : Flags) : Reader Unit :=
  modify fun input => { input with loose := (flags.state? .loose).getD input.loose }

/-- The part that a sign of repetition is about, and the rows without it. -/
def repeated (rows : Tree.Rows) : Reader (Tree × Tree.Rows) := do
  match rows.row with
  | [] | .flags _ :: _ => fail .repetitionOfNothing (.empty (← here))
  | t :: row => return (t, { rows with row })

/-- Passes over the question mark that may follow a repetition. -/
def lazyMark : Reader Unit := do
  if (← head?) = some '?' then advance

/-- A repetition that one sign stands for. -/
def repetition (rows : Tree.Rows) (least : Nat) (most : Option Nat) : Reader Tree.Rows := do
  let (body, rows) ← repeated rows
  advance
  lazyMark
  return rows.add (.times body least most)

/-- A number of repetitions, or the flaw of it. -/
def number : Reader (Except Flaw Nat) := do
  let input ← get
  set { input with
    rest := input.rest.dropWhile Text.isBlank
    position := (input.rest.takeWhile Text.isBlank).foldl Position.after input.position }
  let start ← here
  let digits ← takeRun Char.isDigit (← fuel)
  let span ← since start
  discard (takeRun Text.isBlank (← fuel))
  let n := digits.foldl (fun n d => 10 * n + (d.toNat - 48)) 0
  if digits.isEmpty then return .error (.part .countMissing span none)
  if n ≥ UInt32.size then return .error (.part .numberTooLarge span none)
  return .ok n

/-- A repetition whose numbers stand between braces. -/
def counted (rows : Tree.Rows) : Reader Tree.Rows := do
  let start ← here
  let unlessEnd : Reader Unit := do
    if (← head?).isNone then fail .countOpen (← since start)
  let (body, rows) ← repeated rows
  step
  unlessEnd
  let least ← number
  unlessEnd
  let mut most : Option Nat := none
  let mut bounds := least
  if (← head?) = some ',' then
    step
    unlessEnd
    if (← head?) ≠ some '\x7d' then
      discard (liftM least)
      bounds ← number
      most := some (← liftM bounds)
  else
    most := some (← liftM least)
  let least ← liftM least
  if (← head?) ≠ some '\x7d' then fail .countOpen (← since start)
  step
  lazyMark
  if most.any (· < least) then fail .countOrder (← since start)
  return rows.add (.times body least most)

/-- One part that is no bracket, group or repetition. -/
def atom : Reader Atom := do
  let span ← headSpan
  match ← head? with
  | some '\\' => escape
  | c =>
    advance
    match c.getD '\x00' with
    | '.' => return .any span
    | '^' => return .place span (.lineStart false)
    | '$' => return .place span (.lineEnd false)
    | c => return .literal ⟨span, c, false⟩

/-- The rest of a pattern. `fuel` exceeds the number of characters to come. -/
def patternFrom (fuel : Nat) (groups : List Tree.Open) (rows : Tree.Rows) : Reader Tree := do
  trim
  match fuel, ← head? with
  | 0, _ | _, none =>
    match groups with
    | [] => return rows.whole
    | g :: _ => fail .groupOpen g.span
  | fuel + 1, some c =>
    match c with
    | '(' =>
      match ← opening rows with
      | .inl g =>
        setLoose g.flags
        patternFrom fuel (g :: groups) {}
      | .inr flags =>
        setLoose flags
        patternFrom fuel groups (rows.add (.flags flags))
    | ')' =>
      match groups with
      | [] => fail .groupClosing (← headSpan)
      | g :: groups =>
        modify fun input => { input with loose := g.loose }
        advance
        patternFrom fuel groups (g.outer.add (.group g.flags rows.whole))
    | '|' =>
      advance
      patternFrom fuel groups rows.next
    | '[' => patternFrom fuel groups (rows.add (← bracket))
    | '?' => patternFrom fuel groups (← repetition rows 0 (some 1))
    | '*' => patternFrom fuel groups (← repetition rows 0 none)
    | '+' => patternFrom fuel groups (← repetition rows 1 none)
    | '\x7b' => patternFrom fuel groups (← counted rows)
    | _ => patternFrom fuel groups (rows.add (.atom (← atom)))

/-- The whole pattern. -/
def pattern : Reader Tree := do
  patternFrom (← fuel) [] {}

end Reader

/-- A pattern as it is written, or what is wrong with its spelling. -/
def Tree.parse (t : Text) : Except Flaw Tree := (Reader.pattern.run { rest := t }).map (·.1)

end SolidScript.Pattern
