import SolidScript.Number.Binary64
import SolidScript.Text.Basic

/-!
# Toml

Values of settings files. A file is a list of statements, each of which puts an entry or a table
somewhere; what they come to is a table of named values in the order of their appearance.
-/

namespace SolidScript

/-- How a table came to be, which decides who may add to it. -/
inductive Toml.Origin where
  /-- Between braces. It is complete where it stands. -/
  | inline
  /-- By a header of its own. Dotted keys may not reach into it. -/
  | header
  /-- By the header of a table inside it. A header of its own may still follow. -/
  | implied
  /-- By a dotted key. Further dotted keys may add to it. -/
  | dotted
deriving DecidableEq, Repr

inductive Toml where
  | integer (value : Int)
  | float (value : Binary64)
  | boolean (value : Bool)
  | string (value : Text)
  /-- A date, a time of day, or both. Which one is not kept. -/
  | moment
  | array (items : List Toml)
  | table (origin : Toml.Origin) (entries : List (Text × Toml))
  /-- The tables under one repeated header. -/
  | tables (items : List (List (Text × Toml)))
deriving Inhabited, Repr

namespace Toml

/-- Named values in the order of their appearance. -/
abbrev Entries := List (Text × Toml)

/-- A key with dots: the names of the tables on the way, and the name inside the last of them. -/
structure Key where
  path : List Text
  name : Text
deriving DecidableEq, Repr

/-- One statement of a file. -/
inductive Statement where
  | entry (key : Key) (value : Toml)
  /-- What follows goes into a table of this name. -/
  | header (key : Key)
  /-- What follows goes into one more table of this name. -/
  | arrayHeader (key : Key)

end Toml

end SolidScript
