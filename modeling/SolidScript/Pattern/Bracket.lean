import SolidScript.Pattern.Escape

/-!
# Brackets

Sets of characters as they are written between brackets. Sets may stand within sets, and the signs
`&&`, `--` and `~~` combine what stands before them with what follows.
-/

namespace SolidScript.Pattern

/-- The members of a set so far, and where they stand. -/
structure Members.Items where
  span : Span
  members : List Members := []
deriving DecidableEq, Repr

/-- A set that is still open, or the left side of a sign in it. -/
inductive Members.Layer where
  /-- A bracket, up to its first member, and the members before it. -/
  | bracket (outer : Items) (span : Span) (negated : Bool)
  | op (op : SetOp) (leftSpan : Span) (left : Members)
deriving DecidableEq, Repr

namespace Members

/-- One member more. -/
def Items.add (items : Items) (span : Span) (m : Members) : Items :=
  { span := if items.members.isEmpty then span else ⟨items.span.start, span.stop⟩
    members := m :: items.members }

/-- All members so far together. -/
def Items.whole (items : Items) : Members :=
  match items.members.reverse with
  | [] => empty
  | m :: ms => ms.foldl both m

/-- The last members of a set with the left side of the sign before them, if there is one. -/
def combined (layers : List Layer) (items : Items) : Span × Members × List Layer :=
  match layers with
  | .op op leftSpan left :: layers =>
    (⟨leftSpan.start, items.span.stop⟩,
      combine op leftSpan items.span left items.whole, layers)
  | layers => (items.span, items.whole, layers)

/-- The start of the innermost open bracket. -/
def openSpan? (layers : List Layer) : Option Span :=
  layers.findSome? fun
    | .bracket _ span _ => some span
    | .op .. => none

/-- A named class at the start of a text: its members, whether they are those left out, and the
number of characters that it is written with. -/
def named? : Text → Option (CharSet × Bool × Nat)
  | '[' :: ':' :: r =>
    let negated := r.head? = some '^'
    let r := if negated then r.tail else r
    let name := r.takeWhile (· ≠ ':')
    if [':', ']'].isPrefixOf (r.drop name.length) then
      (namedSets.lookup (String.ofList name)).map fun set =>
        (set, negated, name.length + if negated then 5 else 4)
    else none
  | _ => none

end Members

namespace Reader

open Members

/-- Literal minus signs at the start of a set that begins at `start`. -/
def minusesFrom (fuel : Nat) (start : Position) (items : Items) : Reader Items := do
  match fuel, ← head? with
  | fuel + 1, some '-' =>
    let span ← headSpan
    step
    if (← head?).isNone then fail .bracketOpen (.empty start)
    minusesFrom fuel start (items.add span (.literal ⟨span, '-', false⟩))
  | _, _ => return items

/-- The start of a set, up to its first member, with the literal signs that may stand there. -/
def openBracket (outer : Items) : Reader (Layer × Items) := do
  let start ← here
  step
  if (← head?).isNone then fail .bracketOpen (← since start)
  let negated := (← head?) = some '^'
  if negated then
    step
    if (← head?).isNone then fail .bracketOpen (← since start)
  let items ← minusesFrom (← fuel) start ⟨.empty (← here), []⟩
  if items.members.isEmpty && (← head?) = some ']' then
    let span ← headSpan
    step
    if (← head?).isNone then fail .bracketOpen (← since start)
    return (.bracket outer (← since start) negated,
      items.add span (.literal ⟨span, ']', false⟩))
  return (.bracket outer (← since start) negated, items)

/-- One character or class in a set. -/
def member : Reader Atom := do
  match ← head? with
  | some '\\' => escape
  | c =>
    let span ← headSpan
    advance
    return .literal ⟨span, c.getD '\x00', false⟩

/-- A character as the bound of a range. -/
def bound : Atom → Reader Literal
  | .literal l => return l
  | a => fail .rangeBound a.span

/-- A member of a set by itself. -/
def single : Atom → Reader Members
  | .literal l => return .literal l
  | .shorthand span name negated => return .shorthand span name negated
  | .property span name => return .property span name
  | a => fail .bracketEscape a.span

/-- A member of a set, or a range of them, and where it stands. -/
def range (layers : List Layer) : Reader (Span × Members) := do
  let cut : Reader Unit := do
    if (← head?).isNone then
      fail .bracketOpen ((openSpan? layers).getD (.empty (← here)))
  let first ← member
  trim
  cut
  let second := (← get).second?
  if (← head?) ≠ some '-' || second = some ']' || second = some '-' then
    return (first.span, ← single first)
  step
  cut
  let last ← member
  let span : Span := ⟨first.span.start, last.span.stop⟩
  let first ← bound first
  let last ← bound last
  if last.char < first.char then fail .rangeOrder span
  return (span, .range first last)

/-- A sign between two sets. -/
def setOp? : Text → Option SetOp
  | '&' :: '&' :: _ => some .inter
  | '-' :: '-' :: _ => some .diff
  | '~' :: '~' :: _ => some .symmDiff
  | _ => none

/-- The set whose first bracket comes next, if there are no layers, or the rest of it. `fuel`
exceeds the number of characters to come. -/
def bracketFrom (fuel : Nat) (layers : List Layer) (items : Items) : Reader Tree := do
  trim
  let rest := (← get).rest
  let start ← here
  match fuel, rest with
  | 0, _ | _, [] => fail .bracketOpen ((openSpan? layers).getD (.empty start))
  | fuel + 1, c :: _ =>
    if c = '[' then
      match if layers.isEmpty then none else named? rest with
      | some (set, negated, length) =>
        discard (take (rest.take length))
        let span ← since start
        bracketFrom fuel layers (items.add span (.named span set negated))
      | none =>
        let (layer, inner) ← openBracket items
        bracketFrom fuel (layer :: layers) inner
    else if c = ']' then
      let (_, members, layers) := combined layers items
      match layers with
      | .bracket outer span negated :: layers =>
        advance
        let span ← since span.start
        if layers.isEmpty then return .bracket span negated members
        bracketFrom fuel layers (outer.add span (.bracket span negated members))
      | _ => fail .bracketOpen (.empty start)
    else
      match setOp? rest with
      | some op =>
        advance
        advance
        let (span, left, layers) := combined layers items
        bracketFrom fuel (.op op span left :: layers) ⟨.empty (← here), []⟩
      | none =>
        let (span, m) ← range layers
        bracketFrom fuel layers (items.add span m)

/-- The set whose bracket comes next. -/
def bracket : Reader Tree := do
  bracketFrom (← fuel) [] ⟨.empty (← here), []⟩

end Reader

end SolidScript.Pattern
