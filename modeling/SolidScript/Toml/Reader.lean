import SolidScript.Toml.Scalar
import SolidScript.Toml.Tables

/-!
# Reading settings files

A text as the entries it stands for. The text is cut into statements first, and these are put
together after; either step may find that the text is no settings file at all.
-/

namespace SolidScript.Toml

/-- The items of an array behind its opening bracket, those so far standing in `done` in reverse.
`fuel` exceeds the length of the text. -/
def itemsFrom (item : Scan Toml) (fuel : Nat) (done : List Toml) (t : Text) :
    Option (List Toml × Text) :=
  match fuel with
  | 0 => none
  | fuel + 1 =>
    match skipGaps false t with
    | ']' :: r => some (done.reverse, r)
    | t =>
      match item t with
      | none => none
      | some (v, r) =>
        match skipGaps false r with
        | ',' :: r => itemsFrom item fuel (v :: done) r
        | ']' :: r => some ((v :: done).reverse, r)
        | _ => none

/-- A key, its sign of equality, and its value. -/
def pair (value : Scan Toml) : Scan (Key × Toml) := fun t =>
  match key t with
  | some (k, '=' :: r) => (value (skipSpaces r)).map fun (v, r) => ((k, v), r)
  | _ => none

/-- The pairs of a table between braces, up to the closing one. There is at least one to come. -/
def pairsFrom (value : Scan Toml) (fuel : Nat) (done : List (Key × Toml)) (t : Text) :
    Option (List (Key × Toml) × Text) :=
  match fuel with
  | 0 => none
  | fuel + 1 =>
    match pair value t with
    | none => none
    | some (p, r) =>
      match skipSpaces r with
      | ',' :: r => pairsFrom value fuel (p :: done) r
      | '\x7d' :: r => some ((p :: done).reverse, r)
      | _ => none

/-- The table behind an opening brace. -/
def inlineTable (value : Scan Toml) : Scan Toml := fun t =>
  match skipSpaces t with
  | '\x7d' :: r => some (.table .inline [], r)
  | t =>
    match pairsFrom value (t.length + 1) [] t with
    | none => none
    | some (ps, r) => (ofPairs? ps).map fun es => (.table .inline es, r)

/-- The value at the start of a text, with `levels` brackets and braces inside one another at the
most. -/
def value (levels : Nat) : Scan Toml := fun t =>
  match levels, t with
  | 0, '[' :: _ => none
  | 0, '\x7b' :: _ => none
  | levels + 1, '[' :: r =>
    (itemsFrom (value levels) (r.length + 1) [] r).map fun (vs, r) => (.array vs, r)
  | levels + 1, '\x7b' :: r => inlineTable (value levels) r
  | _, t => scalar t

/-- The number of brackets and braces that may stand inside one another. -/
def levels : Nat := 79

/-- The statement at the start of a text, up to the end of its line. -/
def statement : Scan Statement := fun t =>
  match t with
  | '[' :: '[' :: r =>
    match key r with
    | some (k, ']' :: ']' :: r) => (lineEnd? r).map fun r => (.arrayHeader k, r)
    | _ => none
  | '[' :: r =>
    match key r with
    | some (k, ']' :: r) => (lineEnd? r).map fun r => (.header k, r)
    | _ => none
  | t =>
    match pair (value levels) t with
    | none => none
    | some ((k, v), r) => (lineEnd? r).map fun r => (.entry k v, r)

/-- The statements of a text. `fuel` exceeds its length. -/
def statementsFrom (fuel : Nat) (done : List Statement) (t : Text) : Option (List Statement) :=
  match fuel, skipSpaces t with
  | 0, _ => none
  | _ + 1, [] => some done.reverse
  | fuel + 1, t =>
    match lineEnd? t with
    | some r => statementsFrom fuel done r
    | none =>
      match statement t with
      | none => none
      | some (s, r) => statementsFrom fuel (s :: done) r

/-- The text without the mark U+FEFF that may stand at its start. -/
def dropMark : Text → Text
  | '\uFEFF' :: r => r
  | t => t

/-- The entries that a text stands for, if it is a settings file. -/
def parse? (t : Text) : Option Entries :=
  match statementsFrom (t.length + 1) [] (dropMark t) with
  | none => none
  | some statements => ofStatements? statements

end SolidScript.Toml
