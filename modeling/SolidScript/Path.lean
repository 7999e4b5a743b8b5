import SolidScript.Text.Utf8

/-!
# Path

Names of files as the system gives them: bytes, cut into parts by slashes. A path need not be
readable as a text. `components` is the view in which two paths are the same; `normalize` folds `.`
and `..` away without looking at any file. `foldWritten` is the same folding without a stack of
parts: it keeps nothing but the path that is written so far, puts a part behind it, or reads it
again to see what a `..` takes away.
-/

namespace SolidScript

structure Path where
  bytes : Bytes
deriving DecidableEq, Repr, Inhabited

/-- A part of a path between slashes. -/
inductive Component where
  | root
  /-- `.`, which counts only where a relative path begins. -/
  | here
  /-- `..`. -/
  | up
  | name (bytes : Bytes)
deriving DecidableEq, Repr

namespace Path

def slash : UInt8 := 0x2F

def dot : UInt8 := 0x2E

def ofText (t : Text) : Path := ⟨Utf8.encode t⟩

def ofString (s : String) : Path := ofText s.toList

/-- The path as a text, if its bytes spell one. -/
def toText? (p : Path) : Option Text := Utf8.decode? p.bytes

/-- The path as it is shown: broken bytes become U+FFFD. -/
def display (p : Path) : Text := Utf8.lossy p.bytes

def isAbsolute (p : Path) : Bool := p.bytes.head? = some slash

/-- The stretches so far with one more byte in front. -/
def consPiece (b : UInt8) : List Bytes → List Bytes
  | [] => [[b]]
  | q :: qs => if b = slash then [] :: q :: qs else (b :: q) :: qs

/-- The stretches of bytes between slashes, empty ones included. -/
def pieces (bs : Bytes) : List Bytes := bs.foldr consPiece [[]]

/-- What a stretch between slashes stands for. An empty one stands for nothing, and so does `.`. -/
def component? (piece : Bytes) : Option Component :=
  if piece = [] then none
  else if piece = [dot] then none
  else if piece = [dot, dot] then some .up
  else some (.name piece)

/-- The parts of a path. Repeated slashes, a slash at the end, and `.` count for nothing, except
that a `.` at the start of a relative path is kept. -/
def components (p : Path) : List Component :=
  let rest := (pieces p.bytes).filterMap component?
  if p.isAbsolute then .root :: rest
  else if (pieces p.bytes).head? = some [dot] then .here :: rest
  else rest

/-- Equality of paths by their parts. -/
def eqv (p q : Path) : Bool := p.components = q.components

/-- `q` as seen from the directory `p`. An absolute path is the same from everywhere. -/
def join (p q : Path) : Path :=
  if q.isAbsolute then q
  else match p.bytes.getLast? with
    | none => q
    | some b => if b = slash then ⟨p.bytes ++ q.bytes⟩ else ⟨p.bytes ++ slash :: q.bytes⟩

/-- One more part on a stack of kept parts, the last on top. `..` takes away a name, vanishes at
the root, and is kept where there is nothing to take away. -/
def fold (stack : List Component) : Component → List Component
  | .here => stack
  | .up =>
    match stack with
    | .name _ :: below => below
    | .root :: below => .root :: below
    | other => .up :: other
  | part => part :: stack

/-- The bytes of one part. -/
def spelling : Component → Bytes
  | .root => []
  | .here => [dot]
  | .up => [dot, dot]
  | .name b => b

/-- The path with the given parts, a single slash between each two. -/
def ofComponents : List Component → Path
  | [.root] => ⟨[slash]⟩
  | parts => ⟨List.intercalate [slash] (parts.map spelling)⟩

/-- The parts that are left when `.` and `..` are folded away. -/
def normalParts (p : Path) : List Component := (p.components.foldl fold []).reverse

/-- The path without `.`, and without `..` except where it leads above a relative start. Files are
not looked at, so a link counts as a directory. -/
def normalize (p : Path) : Path := ofComponents p.normalParts

example : (ofString "/a/./b//../c/").normalize = ofString "/a/c" := by decide +kernel

/-- `..` leads above a relative start and not above the root. -/
example : (ofString "a/../../b").normalize = ofString "../b"
    ∧ (ofString "/a/../../b").normalize = ofString "/b" := by decide +kernel

/-- Nothing may be left. -/
example : (ofString "a/..").normalize = ofString "" := by decide +kernel

/-! ## Folding on the written path -/

/-- A stretch between slashes that stands for nothing. -/
def isIdle (piece : Bytes) : Bool := (component? piece).isNone

/-- The stretches without those at the end that stand for nothing. -/
def withoutIdle (pieces : List Bytes) : List Bytes := (pieces.reverse.dropWhile isIdle).reverse

/-- The path without its last part, and without what then counts for nothing at its end. The root
has no part that could go. -/
def parent (p : Path) : Path :=
  match p.components.getLast? with
  | none | some .root => p
  | some .here => ⟨[]⟩
  | some .up | some (.name _) =>
    let left := withoutIdle (withoutIdle (pieces p.bytes)).dropLast
    if left = [] then
      ⟨if p.isAbsolute then [slash] else if (pieces p.bytes).head? = some [dot] then [dot] else []⟩
    else ⟨List.intercalate [slash] left⟩

/-- Without the last part a path may still be written in many ways. -/
example : (ofString "a//b/./c/").parent = ofString "a//b" ∧ (ofString "//a").parent = ofString "/"
    ∧ (ofString "././a").parent = ofString "." ∧ (ofString ".").parent = ofString ""
    ∧ (ofString "/").parent = ofString "/" := by decide +kernel

/-- One more part at the end of a written path. What is kept so far is read off the path. -/
def foldWritten (out : Path) : Component → Path
  | .root => out.join ⟨[slash]⟩
  | .here => out
  | .up =>
    match out.components.getLast? with
    | some (.name _) => out.parent
    | some .root => out
    | none | some .here | some .up => out.join ⟨[dot, dot]⟩
  | .name b => out.join ⟨b⟩

end Path

end SolidScript
