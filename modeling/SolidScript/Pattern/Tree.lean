import SolidScript.Pattern
import SolidScript.Pattern.Flaw

/-!
# Written patterns

A pattern as it is written: its parts, where they stand, and the flags between them that say how
what follows is meant.
-/

namespace SolidScript.Pattern

/-- A way in which a pattern may be meant. -/
inductive Flag where
  /-- Letters stand for both their cases. -/
  | anyCase
  /-- Texts are taken line by line. -/
  | lines
  /-- A dot stands for line ends as well. -/
  | dotAll
  /-- Short runs are sought first. This does not change where a pattern stands. -/
  | lazily
  | unicode
  /-- A carriage return ends a line as well. -/
  | returns
  /-- Blanks and comments in a pattern do not count. -/
  | loose
deriving DecidableEq, Repr

/-- Flags that are turned on and off at a place of a pattern. -/
structure Flags where
  on : List Flag := []
  off : List Flag := []
deriving DecidableEq, Repr

/-- What the flags say about one of them, if anything. -/
def Flags.state? (flags : Flags) (flag : Flag) : Option Bool :=
  if flags.on.contains flag then some true
  else if flags.off.contains flag then some false
  else none

/-- A character of a pattern that stands for itself. -/
structure Literal where
  span : Span
  char : Char
  /-- It is spelled by two digits, which may mean a byte. -/
  isByte : Bool := false
deriving DecidableEq, Repr

/-- A class of characters with a name of one letter. -/
inductive Shorthand where
  | digit
  | space
  | word
deriving DecidableEq, Repr

/-- A part of a pattern that is in itself complete. -/
inductive Atom where
  | literal (l : Literal)
  /-- A dot. -/
  | any (span : Span)
  | place (span : Span) (place : Place)
  | shorthand (span : Span) (name : Shorthand) (negated : Bool)
  /-- A class of characters that a property gives. -/
  | property (span : Span) (name : Text)
deriving DecidableEq, Repr

def Atom.span : Atom → Span
  | literal l => l.span
  | any s => s
  | place s _ => s
  | shorthand s _ _ => s
  | property s _ => s

/-- A sign between two sets. -/
inductive SetOp where
  | inter
  | diff
  | symmDiff
deriving DecidableEq, Repr

def SetOp.apply : SetOp → CharSet → CharSet → CharSet
  | inter => .inter
  | diff => .diff
  | symmDiff => .symmDiff

/-- What stands between brackets. -/
inductive Members where
  | empty
  | literal (l : Literal)
  | range (first last : Literal)
  /-- A class of ASCII characters with a name. -/
  | named (span : Span) (set : CharSet) (negated : Bool)
  | shorthand (span : Span) (name : Shorthand) (negated : Bool)
  | property (span : Span) (name : Text)
  | bracket (span : Span) (negated : Bool) (members : Members)
  | both (m n : Members)
  | combine (op : SetOp) (leftSpan rightSpan : Span) (left right : Members)
deriving DecidableEq, Repr

/-- A written pattern. -/
inductive Tree where
  | empty
  | atom (a : Atom)
  | bracket (span : Span) (negated : Bool) (members : Members)
  /-- Flags for all that follows in the same group. -/
  | flags (flags : Flags)
  | group (flags : Flags) (body : Tree)
  | times (body : Tree) (least : Nat) (most : Option Nat)
  | seq (t u : Tree)
  | either (t u : Tree)
deriving DecidableEq, Repr

/-- Some trees in a row. -/
def Tree.inRow : List Tree → Tree
  | [] => empty
  | [t] => t
  | t :: ts => seq t (inRow ts)

/-- A choice between some trees and a last one. -/
def Tree.choice (ts : List Tree) (last : Tree) : Tree := ts.foldr either last

/-- The classes of ASCII characters that have names between brackets. -/
def namedSets : List (String × CharSet) :=
  [("alnum", .ofRanges [(0x30, 0x39), (0x41, 0x5A), (0x61, 0x7A)]),
    ("alpha", .ofRanges [(0x41, 0x5A), (0x61, 0x7A)]),
    ("ascii", .range 0 0x7F),
    ("blank", .ofRanges [(0x9, 0x9), (0x20, 0x20)]),
    ("cntrl", .ofRanges [(0, 0x1F), (0x7F, 0x7F)]),
    ("digit", .range 0x30 0x39),
    ("graph", .range 0x21 0x7E),
    ("lower", .range 0x61 0x7A),
    ("print", .range 0x20 0x7E),
    ("punct", .ofRanges [(0x21, 0x2F), (0x3A, 0x40), (0x5B, 0x60), (0x7B, 0x7E)]),
    ("space", .ofRanges [(0x9, 0xD), (0x20, 0x20)]),
    ("upper", .range 0x41 0x5A),
    ("word", wordChars),
    ("xdigit", .ofRanges [(0x30, 0x39), (0x41, 0x46), (0x61, 0x66)])]

/-- The ASCII characters that a shorthand stands for. -/
def Shorthand.asciiSet : Shorthand → CharSet
  | digit => .range 0x30 0x39
  | space => .ofRanges [(0x9, 0xD), (0x20, 0x20)]
  | word => wordChars

end SolidScript.Pattern
