import SolidScript.Pattern.Group

/-!
# The meaning of written patterns

The pattern that a written one stands for. Flags say how each part is meant. Beyond ASCII neither
the cases of letters nor classes of characters are known, so a pattern that needs them has no
meaning; nor has one that would fit bytes that are no text.
-/

namespace SolidScript.Pattern

/-- How a part of a pattern is meant. -/
structure Mode where
  anyCase : Bool := false
  lines : Bool := false
  dotAll : Bool := false
  /-- Patterns are about characters. Else they are about bytes. -/
  unicode : Bool := true
  returns : Bool := false
deriving DecidableEq, Repr

/-- The mode with some flags turned on and off. -/
def Mode.under (mode : Mode) (flags : Flags) : Mode where
  anyCase := (flags.state? .anyCase).getD mode.anyCase
  lines := (flags.state? .lines).getD mode.lines
  dotAll := (flags.state? .dotAll).getD mode.dotAll
  unicode := (flags.state? .unicode).getD mode.unicode
  returns := (flags.state? .returns).getD mode.returns

variable {α : Type}

def wrong (kind : Flaw.Kind) (span : Span) : Except Flaw α := .error (.part kind span none)

namespace Mode

/-- Two cases of a letter are to be taken for one, and the letters are those of all scripts. -/
def foldsAll (mode : Mode) : Bool := mode.anyCase && mode.unicode

/-- A character, or a byte that is one. -/
def literal (mode : Mode) (l : Literal) : Except Flaw CharSet :=
  if mode.foldsAll then wrong .caseBeyondAscii l.span
  else if !mode.unicode && l.isByte && 0x80 ≤ l.char.toNat then wrong .noText l.span
  else if mode.anyCase then .ok (.anyCase (.single l.char))
  else .ok (.single l.char)

/-- The code point of a character in a set. A set of bytes holds ASCII alone. -/
def bound (mode : Mode) (l : Literal) : Except Flaw Nat :=
  if mode.unicode || l.char.toNat < 0x80 then .ok l.char.toNat
  else if l.isByte then wrong .noText l.span
  else wrong .beyondAscii l.span

/-- A set as it is meant, before which a sign may take all others. `isNew` says that it has members
whose cases have not been looked at. -/
def closed (mode : Mode) (span : Span) (negated isNew : Bool) (set : CharSet) :
    Except Flaw CharSet :=
  let set := if mode.anyCase then .anyCase set else set
  let set := if negated then .compl set else set
  if mode.foldsAll && isNew then wrong .caseBeyondAscii span
  else if !mode.unicode && set.holdsHighByte then wrong .noText span
  else .ok set

def shorthand (mode : Mode) (span : Span) (name : Shorthand) (negated : Bool) :
    Except Flaw CharSet :=
  if mode.unicode then wrong .shorthandBeyondAscii span
  else if negated then wrong .noText span
  else .ok name.asciiSet

/-- The name of a property without the signs in it that do not count. -/
def plainName (name : Text) : Text :=
  let lower := name.map Char.toLower
  let bare := if ['i', 's'].isPrefixOf lower then lower.drop 2 else lower
  bare.filter fun c => c ≠ ' ' && c ≠ '_' && c ≠ '-' && c.toNat < 0x80

/-- No property of characters is known. The flaw of three names is that they are values. -/
def property (mode : Mode) (span : Span) (name : Text) : Except Flaw α :=
  if !mode.unicode then wrong .beyondAscii span
  else if ["cf".toList, "sc".toList, "lc".toList].contains (plainName name) then
    wrong .propertyValueUnknown span
  else wrong .propertyUnknown span

end Mode

namespace Members

/-- There are members whose cases have not been looked at. -/
def isNew : Members → Bool
  | literal _ => true
  | range _ _ => true
  | both m n => m.isNew || n.isNew
  | _ => false

/-- The set that members make up. -/
def set (mode : Mode) : Members → Except Flaw CharSet
  | empty => .ok .empty
  | literal l => do
    let n ← mode.bound l
    return .range n n
  | range first last => return .range (← mode.bound first) (← mode.bound last)
  | named span set negated => mode.closed span negated true set
  | shorthand span name negated => mode.shorthand span name negated
  | property span name => mode.property span name
  | bracket span negated members => do
    mode.closed span negated members.isNew (← members.set mode)
  | both m n => return .union (← m.set mode) (← n.set mode)
  | combine op leftSpan rightSpan left right => do
    let s ← left.set mode
    let t ← right.set mode
    if mode.foldsAll && right.isNew then wrong .caseBeyondAscii rightSpan
    if mode.foldsAll && left.isNew then wrong .caseBeyondAscii leftSpan
    return if mode.anyCase then op.apply (.anyCase s) (.anyCase t) else op.apply s t

end Members

/-- What is known of a pattern behind a part of it. -/
structure Meaning.State where
  mode : Mode := {}
  /-- There are conditions on the edges of words of all scripts. -/
  wordEdges : Bool := false
deriving DecidableEq, Repr

abbrev Meaning := StateT Meaning.State (Except Flaw)

namespace Meaning

/-- A condition on a place in the mode at hand. -/
def place (place : Place) : Meaning Pattern := do
  let mode := (← get).mode
  match place with
  | .lineStart _ => return .spot (if mode.lines then .lineStart mode.returns else .textStart)
  | .lineEnd _ => return .spot (if mode.lines then .lineEnd mode.returns else .textEnd)
  | .textStart | .textEnd => return .spot place
  | _ =>
    modify fun state => { state with wordEdges := state.wordEdges || mode.unicode }
    return .spot place

/-- The characters that a dot stands for. -/
def anySet (mode : Mode) : CharSet :=
  if mode.dotAll then .full
  else if mode.returns then .compl (.ofRanges [(0xA, 0xA), (0xD, 0xD)])
  else .compl (.single '\n')

def atom : Atom → Meaning Pattern
  | .literal l => return .char (← liftM ((← get).mode.literal l))
  | .any span => do
    let mode := (← get).mode
    if !mode.unicode then throw (.part .noText span none)
    return .char (anySet mode)
  | .place _ p => place p
  | .shorthand span name negated => do
    return .char (← liftM ((← get).mode.shorthand span name negated))
  | .property span name => do (← get).mode.property span name

/-- The pattern of a tree. Flags hold up to the end of the group that they stand in. What is
repeated no times is not there. -/
def tree : Tree → Meaning Pattern
  | .empty => return .nothing
  | .atom a => atom a
  | .bracket span negated members => do
    let mode := (← get).mode
    return .char (← liftM (Members.set mode (.bracket span negated members)))
  | .flags flags => do
    modify fun state => { state with mode := state.mode.under flags }
    return .nothing
  | .group flags body => do
    let mode := (← get).mode
    modify fun state => { state with mode := mode.under flags }
    let p ← tree body
    modify fun state => { state with mode }
    return p
  | .times body least most => do
    let wordEdges := (← get).wordEdges
    let p ← tree body
    if most = some 0 then
      modify fun state => { state with wordEdges }
      return .nothing
    return .times p least most
  | .seq t u => return .seq (← tree t) (← tree u)
  | .either t u => return .either (← tree t) (← tree u)

end Meaning

/-- The pattern that a text spells, or what is wrong with it. -/
def parse (t : Text) : Except Flaw Pattern := do
  let tree ← Tree.parse t
  let (pattern, state) ← (Meaning.tree tree).run {}
  if state.wordEdges then throw .edgeBeyondAscii
  return pattern

/-- A repetition takes the part before it, and a choice takes rows. -/
example : (parse "a|bc*".toList).toOption = some (.either (.char (.single 'a'))
    (.seq (.char (.single 'b')) (.times (.char (.single 'c')) 0 none))) := by decide +kernel

/-- Sets of bytes are sets of ASCII characters, so no others may be taken out. -/
example : (parse "(?-u)[^a]".toList).toOption = none := by decide +kernel

end SolidScript.Pattern
