import SolidScript.Json
import SolidScript.Json.Skip

/-!
# Shapes

What a document is expected to hold, and the reader that is guided by it. A record may be spelled
as an object, with its fields in any order and unknown ones among them, or as an array of its fields
in the declared order. A choice is an object with one entry, whose key says which.

What is read is returned in one spelling: records as objects with their fields in the declared order
and nothing else. A text is read once, from its start to its end, and the first fault is reported.
-/

namespace SolidScript

/-- The choices of tree documents. -/
inductive Choice where
  | node
  | op
deriving DecidableEq, Repr

/-- What a record is called. -/
inductive Shape.Title where
  /-- A record with a name of its own, wherever it stands. -/
  | named (name : Text)
  /-- The fields of one variant of a choice, which are not a record elsewhere. -/
  | variant (name : Text)
deriving DecidableEq, Repr

inductive Shape where
  | number
  | flag
  | text
  | path
  /-- Three numbers. -/
  | vector
  | list (item : Shape)
  /-- Fields with names. -/
  | record (title : Shape.Title) (fields : List (Text × Shape))
  | choice (of : Choice)
deriving Repr

namespace Shape

/-- What messages call a record. -/
def Title.text : Title → Text
  | .named name => "struct ".toList ++ name
  | .variant name => "struct variant ".toList ++ name

/-- What messages call the expected thing. -/
def expected : Shape → Text
  | .number => "f64".toList
  | .flag => "a boolean".toList
  | .text => "a string".toList
  | .path => "path string".toList
  | .vector => "a matrix array".toList
  | .list _ => "a sequence".toList
  | .record title _ => title.text
  | .choice _ => []

/-- What messages call a record that is spelled as an array. -/
def expectedArray (title : Title) (fields : Nat) : Text :=
  title.text ++ " with ".toList ++ digits fields
    ++ if fields = 1 then " element".toList else " elements".toList

/-- What is missing where the name of a variant stands alone: the fields of the variant, or the one
value that belongs to it. A record with a name of its own is such a value. -/
def expectedContent : Shape → Text
  | .record (.variant _) _ => "struct variant".toList
  | _ => "newtype variant".toList

end Shape

namespace Json

/-- The fault of a place that holds a value of another kind. A value without brackets is read to
its end first, and may turn out to be malformed. -/
def unexpected (fuel : Nat) (expected : Text) (t : Text) : ReadError :=
  match t with
  | [] => .truncated
  | c :: r =>
    let wrong (found : Found) : ReadError := .misfit (.wrongType found expected)
    let word (w : String) (found : Found) : ReadError :=
      match expectWord w.toList r with
      | .error e => e
      | .ok _ => wrong found
    if c = 'n' then word "ull" .null
    else if c = 't' then word "rue" (.boolean true)
    else if c = 'f' then word "alse" (.boolean false)
    else if c = '-' ∨ c.isDigit then
      match numberFound (c :: r) with
      | .error e => e
      | .ok (found, _) => wrong found
    else if c = '"' then
      match stringBody fuel r with
      | .error e => e
      | .ok (s, _) => wrong (.string s)
    else if c = '[' then wrong .sequence
    else if c = '\x7b' then wrong .map
    else .malformed

/-! ## Values without brackets -/

def readNumber (fuel : Nat) (expected : Text) : Reader Binary64 := fun t =>
  match skipBlanks t with
  | c :: r =>
    if c = '-' ∨ c.isDigit then numberValue (c :: r)
    else .error (unexpected fuel expected (c :: r))
  | [] => .error .truncated

def readFlag (fuel : Nat) (expected : Text) : Reader Bool := fun t =>
  match skipBlanks t with
  | c :: r =>
    if c = 't' then (expectWord "rue".toList r).map ((true, ·))
    else if c = 'f' then (expectWord "alse".toList r).map ((false, ·))
    else .error (unexpected fuel expected (c :: r))
  | [] => .error .truncated

def readString (fuel : Nat) (expected : Text) : Reader Text := fun t =>
  match skipBlanks t with
  | c :: r =>
    if c = '"' then stringBody fuel r
    else .error (unexpected fuel expected (c :: r))
  | [] => .error .truncated

/-! ## Arrays -/

/-- The start of the next item of an array, or `none` before the closing bracket. -/
def nextItem? (first : Bool) (t : Text) : Except ReadError (Option Text) :=
  match skipBlanks t with
  | [] => .error .truncated
  | c :: r =>
    if c = ']' then .ok none
    else if first then .ok (some (c :: r))
    else if c = ',' then
      match skipBlanks r with
      | [] => .error .truncated
      | d :: s => if d = ']' then .error .malformed else .ok (some (d :: s))
    else .error .malformed

/-- The rest behind the closing bracket of an array whose items are all read. -/
def closeArray (t : Text) : Except ReadError Text :=
  match skipBlanks t with
  | [] => .error .truncated
  | c :: r => if c = ']' then .ok r else .error .malformed

/-- The items of an array up to its closing bracket, the ones so far standing in `done` in reverse.
`fuel` exceeds the length of the text. -/
def itemsFrom (item : Reader Json) (fuel : Nat) (done : List Json) (t : Text) :
    Except ReadError (List Json × Text) :=
  match fuel with
  | 0 => .error .truncated
  | fuel + 1 =>
    match nextItem? done.isEmpty t with
    | .error e => .error e
    | .ok none => (closeArray t).map ((done.reverse, ·))
    | .ok (some t) =>
      match item t with
      | .error e => .error e
      | .ok (j, t) => itemsFrom item fuel (j :: done) t

/-- The numbers of a vector, of which `missing` are still to come, up to the closing bracket. One
number too many is read before it is refused. -/
def vectorFrom (fuel missing : Nat) (first : Bool) (t : Text) :
    Except ReadError (List Json × Text) :=
  match nextItem? first t, missing with
  | .error e, _ => .error e
  | .ok none, 0 => (closeArray t).map (([], ·))
  | .ok none, m + 1 => .error (.misfit (.wrongLength (3 - (m + 1)) Shape.vector.expected))
  | .ok (some t), 0 =>
    match readNumber fuel Shape.number.expected t with
    | .error e => .error e
    | .ok _ => .error (.misfit (.wrongLength 3 Shape.vector.expected))
  | .ok (some t), m + 1 =>
    match readNumber fuel Shape.number.expected t with
    | .error e => .error e
    | .ok (x, t) =>
      match vectorFrom fuel m false t with
      | .error e => .error e
      | .ok (js, t) => .ok (.number x :: js, t)

/-- The fields of a record that is spelled as an array, `read` of them being read already. -/
def tupleFrom (value : Shape → Reader Json) (title : Shape.Title) (total : Nat) :
    Nat → List (Text × Shape) → Text → Except ReadError (List (Text × Json) × Text)
  | _, [], t => (closeArray t).map (([], ·))
  | read, (name, shape) :: fields, t =>
    match nextItem? (read = 0) t with
    | .error e => .error e
    | .ok none => .error (.misfit (.wrongLength read (Shape.expectedArray title total)))
    | .ok (some t) =>
      match value shape t with
      | .error e => .error e
      | .ok (j, t) =>
        match tupleFrom value title total (read + 1) fields t with
        | .error e => .error e
        | .ok (js, t) => .ok ((name, j) :: js, t)

/-! ## Objects -/

/-- The next key of an object, or `none` before the closing bracket. -/
def nextKey? (fuel : Nat) (first : Bool) (t : Text) : Except ReadError (Option (Text × Text)) :=
  let key (t : Text) : Except ReadError (Option (Text × Text)) :=
    match t with
    | [] => .error .truncated
    | c :: r => if c = '"' then (stringBody fuel r).map some else .error .malformed
  match skipBlanks t with
  | [] => .error .truncated
  | c :: r =>
    if c = '\x7d' then .ok none
    else if first then key (c :: r)
    else if c = ',' then key (skipBlanks r)
    else .error .malformed

/-- The rest behind the closing bracket of an object whose entries are all read. -/
def closeObject (t : Text) : Except ReadError Text :=
  match skipBlanks t with
  | [] => .error .truncated
  | c :: r => if c = '\x7d' then .ok r else .error .malformed

/-- The fields of a record in the declared order, picked from those that were read. The first that
is missing is reported. -/
def pickFields (found : List (Text × Json)) :
    List (Text × Shape) → Except Misfit (List (Text × Json))
  | [] => .ok []
  | (name, _) :: fields =>
    match found.lookup name with
    | none => .error (.missingField name)
    | some j => (pickFields found fields).map ((name, j) :: ·)

/-- The entries of a record that is spelled as an object, up to its closing bracket. Entries that
are no fields are skipped. `first` says that none is read yet, and `fuel` exceeds the length of the
text. -/
def entriesFrom (value : Shape → Reader Json) (fields : List (Text × Shape)) (fuel : Nat)
    (first : Bool) (found : List (Text × Json)) (t : Text) :
    Except ReadError (List (Text × Json) × Text) :=
  match fuel with
  | 0 => .error .truncated
  | fuel + 1 =>
    match nextKey? fuel first t with
    | .error e => .error e
    | .ok none =>
      match pickFields found fields with
      | .error cause => .error (.misfit cause)
      | .ok picked => (closeObject t).map ((picked, ·))
    | .ok (some (key, t)) =>
      match fields.lookup key with
      | none =>
        match expectColon t with
        | .error e => .error e
        | .ok t =>
          match skipValue fuel t with
          | .error e => .error e
          | .ok t => entriesFrom value fields fuel false found t
      | some shape =>
        if (found.lookup key).isSome then .error (.misfit (.duplicateField key))
        else match expectColon t with
          | .error e => .error e
          | .ok t =>
            match value shape t with
            | .error e => .error e
            | .ok (j, t) => entriesFrom value fields fuel false ((key, j) :: found) t

/-! ## The guided reader -/

/-- The key of a choice, which stands behind an opening bracket. -/
def variantKey (fuel : Nat) (variants : List (Text × Shape)) (t : Text) :
    Except ReadError ((Text × Shape) × Text) :=
  match skipBlanks t with
  | [] => .error .truncated
  | c :: r =>
    if c ≠ '"' then .error .malformed
    else match stringBody fuel r with
      | .error e => .error e
      | .ok (key, r) =>
        match variants.lookup key with
        | none => .error (.misfit (.unknownVariant key (variants.map (·.1))))
        | some shape => (expectColon r).map (((key, shape), ·))

/-- The fault of a place where the name of a variant stands alone. -/
def bareVariant (fuel : Nat) (variants : List (Text × Shape)) (t : Text) : ReadError :=
  match stringBody fuel t with
  | .error e => e
  | .ok (key, _) =>
    match variants.lookup key with
    | none => .misfit (.unknownVariant key (variants.map (·.1)))
    | some shape => .misfit (.wrongType .bareVariant shape.expectedContent)

/-- The value of the given shape at the start of a text. `levels` brackets may be opened on the way
to any part of it, those of skipped entries not counted. `fuel` exceeds the length of the text. -/
def read (variants : Choice → List (Text × Shape)) (fuel levels : Nat) (shape : Shape) :
    Reader Json :=
  fun t =>
    match levels, shape, skipBlanks t with
    | _, _, [] => .error .truncated
    | _, .number, t => (readNumber fuel shape.expected t).map fun (x, t) => (.number x, t)
    | _, .flag, t => (readFlag fuel shape.expected t).map fun (b, t) => (.bool b, t)
    | _, .text, t => (readString fuel shape.expected t).map fun (s, t) => (.string s, t)
    | _, .path, t => (readString fuel shape.expected t).map fun (s, t) => (.string s, t)
    | levels, .vector, c :: r =>
      if c ≠ '[' then .error (unexpected fuel shape.expected (c :: r))
      else match levels with
        | 0 => .error .malformed
        | _ + 1 => (vectorFrom fuel 3 true r).map fun (js, t) => (.array js, t)
    | levels, .list item, c :: r =>
      if c ≠ '[' then .error (unexpected fuel shape.expected (c :: r))
      else match levels with
        | 0 => .error .malformed
        | levels + 1 =>
          (itemsFrom (read variants fuel levels item) fuel [] r).map
            fun (js, t) => (.array js, t)
    | levels, .record title fields, c :: r =>
      if c = '[' then
        match levels with
        | 0 => .error .malformed
        | levels + 1 =>
          (tupleFrom (read variants fuel levels) title fields.length 0 fields r).map
            fun (fs, t) => (.object fs, t)
      else if c = '\x7b' then
        match levels with
        | 0 => .error .malformed
        | levels + 1 =>
          (entriesFrom (read variants fuel levels) fields fuel true [] r).map
            fun (fs, t) => (.object fs, t)
      else .error (unexpected fuel shape.expected (c :: r))
    | levels, .choice of, c :: r =>
      if c = '"' then .error (bareVariant fuel (variants of) r)
      else if c ≠ '\x7b' then .error .malformed
      else match levels with
        | 0 => .error .malformed
        | levels + 1 =>
          match variantKey fuel (variants of) r with
          | .error e => .error e
          | .ok ((key, content), t) =>
            match read variants fuel levels content t with
            | .error e => .error e
            | .ok (j, t) => (closeObject t).map fun t => (.object [(key, j)], t)

/-- The value of the given shape that a whole text spells. Only blanks may follow it. -/
def readAll (variants : Choice → List (Text × Shape)) (levels : Nat) (shape : Shape) (t : Text) :
    Except ReadError Json :=
  match read variants (t.length + 1) levels shape t with
  | .error e => .error e
  | .ok (j, r) => if skipBlanks r = [] then .ok j else .error .malformed

end Json

end SolidScript
