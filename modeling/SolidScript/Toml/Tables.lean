import SolidScript.Toml

/-!
# Tables

What the statements of a file come to. No name is given twice and no table is completed twice: a
statement that would do so makes the whole file unreadable.
-/

namespace SolidScript.Toml

/-- The entries with a value under a name, in the place of the one before it if there is one, and
else at the end. -/
def Entries.put (name : Text) (value : Toml) : Entries → Entries
  | [] => [(name, value)]
  | (n, v) :: es => if n = name then (n, value) :: es else (n, v) :: Entries.put name value es

/-- The entries without those of a name. -/
def Entries.without (name : Text) (es : Entries) : Entries := es.filter fun e => e.1 ≠ name

/-- A key may lead through a table of this origin. -/
def Origin.admits (dotted : Bool) : Origin → Bool
  | .inline => false
  | .header => !dotted
  | .implied | .dotted => true

/-- The entries after a change to the table at the end of a path. Tables that are missing on the
way are made; a path through a repeated header leads into its last table. `dotted` says whether the
path belongs to a key or to a header. -/
def changeAt (dotted : Bool) (change : Origin → Entries → Option Entries) :
    List Text → Origin → Entries → Option Entries
  | [], origin, es => change origin es
  | name :: path, _, es =>
    match es.lookup name with
    | none =>
      let origin := if dotted then .dotted else .implied
      (changeAt dotted change path origin []).map fun inner => es.put name (.table origin inner)
    | some (.table origin inner) =>
      if origin.admits dotted then
        (changeAt dotted change path origin inner).map fun inner =>
          es.put name (.table origin inner)
      else none
    | some (.tables ts) =>
      match ts.getLast? with
      | none => none
      | some last =>
        (changeAt dotted change path .header last).map fun last =>
          es.put name (.tables (ts.dropLast ++ [last]))
    | some _ => none

/-- A table with one more entry. A dotted key ends in a table that dotted keys have made, and a
plain one does not. -/
def enter (key : Key) (value : Toml) (origin : Origin) (es : Entries) : Option Entries :=
  changeAt true (fun origin es =>
    if (origin = .dotted) = (key.path = []) then none
    else if (es.lookup key.name).isSome then none
    else some (es ++ [(key.name, value)])) key.path origin es

/-- Room for the table of a header. One that is only implied moves to the end. -/
def openTable (name : Text) (es : Entries) : Option Entries :=
  match es.lookup name with
  | none => some (es ++ [(name, .table .header [])])
  | some (.table .implied inner) => some (es.without name ++ [(name, .table .header inner)])
  | some _ => none

/-- Room for one more table of a repeated header. -/
def openAnother (name : Text) (es : Entries) : Option Entries :=
  match es.lookup name with
  | none => some (es ++ [(name, .tables [[]])])
  | some (.tables ts) => some (es.put name (.tables (ts ++ [[]])))
  | some _ => none

/-- What the statements so far come to, and the path of the table that further entries go into. -/
structure Draft where
  entries : Entries := []
  here : List Text := []

/-- The draft with one more statement, unless it contradicts an earlier one. -/
def Draft.add (draft : Draft) : Statement → Option Draft
  | .entry key value =>
    (changeAt false (enter key value) draft.here .header draft.entries).map fun entries =>
      { draft with entries }
  | .header key =>
    (changeAt false (fun _ => openTable key.name) key.path .header draft.entries).map fun entries =>
      ⟨entries, key.path ++ [key.name]⟩
  | .arrayHeader key =>
    (changeAt false (fun _ => openAnother key.name) key.path .header draft.entries).map
      fun entries => ⟨entries, key.path ++ [key.name]⟩

/-- The entries that the statements of a file come to. -/
def ofStatements? (statements : List Statement) : Option Entries :=
  (statements.foldlM Draft.add {}).map Draft.entries

/-- The entries between braces. -/
def ofPairs? (pairs : List (Key × Toml)) : Option Entries :=
  pairs.foldlM (fun es (key, value) => enter key value .inline es) []

end SolidScript.Toml
