import SolidScript.Json.Shape
import SolidScript.Proofs.Json.Nesting

/-!
# Values and shapes

A value fits a shape if it is spelled the way the guided reader returns it (`Fits`), and it can be
loaded if its brackets are few enough and its numbers are finite (`Loads`). The fields of a record
are found by their names, in whatever order they have been read (`pickFields_reverse`).
-/

namespace SolidScript.Json

/-! ## Values that can be read back -/

mutual

/-- The numbers of the value, in the order in which they are written. -/
def numbers : Json → List Binary64
  | .number x => [x]
  | .array items => numbersAll items
  | .object fields => numbersFields fields
  | _ => []

def numbersAll : List Json → List Binary64
  | [] => []
  | j :: js => j.numbers ++ numbersAll js

def numbersFields : List (Text × Json) → List Binary64
  | [] => []
  | (_, j) :: fs => j.numbers ++ numbersFields fs

end

/-- The brackets of the value are no more than `levels`, and its numbers are finite. -/
def Loads (levels : Nat) (j : Json) : Prop :=
  j.depth ≤ levels ∧ ∀ x ∈ j.numbers, x.isFinite = true

theorem depthAll_le_iff {levels : Nat} (js : List Json) :
    depthAll js ≤ levels ↔ ∀ j ∈ js, j.depth ≤ levels := by
  induction js with
  | nil => exact ⟨fun _ => List.forall_mem_nil _, fun _ => Nat.zero_le levels⟩
  | cons j js ih => rw [depthAll_cons, Nat.max_le, ih, List.forall_mem_cons]

theorem depthFields_le_iff {levels : Nat} (fs : List (Text × Json)) :
    depthFields fs ≤ levels ↔ ∀ f ∈ fs, f.2.depth ≤ levels := by
  induction fs with
  | nil => exact ⟨fun _ => List.forall_mem_nil _, fun _ => Nat.zero_le levels⟩
  | cons f fs ih => rw [depthFields_cons, Nat.max_le, ih, List.forall_mem_cons]

theorem numbersAll_eq_flatMap (js : List Json) : numbersAll js = js.flatMap numbers := by
  induction js with
  | nil => rfl
  | cons j js ih =>
    show j.numbers ++ numbersAll js = _
    rw [ih, List.flatMap_cons]

theorem numbersFields_eq_flatMap (fs : List (Text × Json)) :
    numbersFields fs = fs.flatMap fun f => f.2.numbers := by
  induction fs with
  | nil => rfl
  | cons f fs ih =>
    show f.2.numbers ++ numbersFields fs = _
    rw [ih, List.flatMap_cons]

theorem numbers_array (js : List Json) : (array js).numbers = js.flatMap numbers :=
  numbersAll_eq_flatMap js

theorem numbers_object (fs : List (Text × Json)) :
    (object fs).numbers = fs.flatMap fun f => f.2.numbers := numbersFields_eq_flatMap fs

/-- An array takes up one bracket. -/
theorem loads_array_iff (levels : Nat) (js : List Json) :
    (Json.array js).Loads (levels + 1) ↔ ∀ j ∈ js, j.Loads levels := by
  simp only [Loads, depth_array, numbers_array, List.forall_mem_flatMap,
    Nat.add_comm 1, Nat.add_le_add_iff_right, depthAll_le_iff, forall_and]

/-- So does an object. -/
theorem loads_object_iff (levels : Nat) (fs : List (Text × Json)) :
    (Json.object fs).Loads (levels + 1) ↔ ∀ f ∈ fs, f.2.Loads levels := by
  simp only [Loads, depth_object, numbers_object, List.forall_mem_flatMap,
    Nat.add_comm 1, Nat.add_le_add_iff_right, depthFields_le_iff, forall_and]

theorem not_loads_array_zero (js : List Json) : ¬(Json.array js).Loads 0 := by
  rintro ⟨h, -⟩
  rw [depth_array] at h
  omega

theorem not_loads_object_zero (fs : List (Text × Json)) : ¬(Json.object fs).Loads 0 := by
  rintro ⟨h, -⟩
  rw [depth_object] at h
  omega

theorem loads_flag (levels : Nat) (b : Bool) : (Json.bool b).Loads levels :=
  ⟨Nat.zero_le levels, List.forall_mem_nil _⟩

theorem loads_string (levels : Nat) (t : Text) : (Json.string t).Loads levels :=
  ⟨Nat.zero_le levels, List.forall_mem_nil _⟩

theorem loads_number_iff (levels : Nat) (x : Binary64) :
    (Json.number x).Loads levels ↔ x.isFinite = true := by
  show (0 ≤ levels ∧ ∀ y ∈ [x], y.isFinite = true) ↔ _
  simp

/-! ## Other numbers -/

section Map

variable (f : Binary64 → Binary64)

mutual

/-- The value with every number changed. -/
def map : Json → Json
  | .null => .null
  | .bool b => .bool b
  | .number x => .number (f x)
  | .string t => .string t
  | .array items => .array (mapAll items)
  | .object fields => .object (mapFields fields)

def mapAll : List Json → List Json
  | [] => []
  | j :: js => j.map :: mapAll js

def mapFields : List (Text × Json) → List (Text × Json)
  | [] => []
  | (key, j) :: fs => (key, j.map) :: mapFields fs

end

theorem map_array (js : List Json) : (array js).map f = array (js.map (map f)) := by
  rw [map]
  congr 1
  induction js with
  | nil => rfl
  | cons j js ih => rw [mapAll, ih, List.map_cons]

theorem map_object (fs : List (Text × Json)) :
    (object fs).map f = object (fs.map fun (key, j) => (key, j.map f)) := by
  rw [map]
  congr 1
  induction fs with
  | nil => rfl
  | cons entry fs ih => rw [mapFields, ih, List.map_cons]

end Map

/-! ## Shapes -/

/-- A field of a record, with its value. -/
structure Row where
  name : Text
  shape : Shape
  value : Json

/-- What is declared about the field. -/
def Row.field (row : Row) : Text × Shape := (row.name, row.shape)

/-- What is written for the field. -/
def Row.entry (row : Row) : Text × Json := (row.name, row.value)

/-- The field with the numbers of its value changed. -/
def Row.map (f : Binary64 → Binary64) (row : Row) : Row := { row with value := row.value.map f }

@[simp]
theorem Row.name_map (f : Binary64 → Binary64) (row : Row) : (row.map f).name = row.name := rfl

@[simp]
theorem Row.field_map (f : Binary64 → Binary64) (row : Row) : (row.map f).field = row.field := rfl

theorem map_object_rows (f : Binary64 → Binary64) (rows : List Row) :
    (object (rows.map Row.entry)).map f = object ((rows.map (Row.map f)).map Row.entry) := by
  rw [map_object, List.map_map, List.map_map]
  rfl

/-- The value is spelled as the shape asks: records have their fields in the declared order, and the
names of the fields are different. -/
inductive Fits (variants : Choice → List (Text × Shape)) : Shape → Json → Prop where
  | number (x : Binary64) : Fits variants .number (.number x)
  | flag (b : Bool) : Fits variants .flag (.bool b)
  | text (t : Text) : Fits variants .text (.string t)
  | path (t : Text) : Fits variants .path (.string t)
  | vector (x y z : Binary64) : Fits variants .vector (.array [.number x, .number y, .number z])
  | list {item : Shape} {js : List Json} (h : ∀ j ∈ js, Fits variants item j) :
    Fits variants (.list item) (.array js)
  | record (title : Shape.Title) (rows : List Row) (names : (rows.map Row.name).Nodup)
    (h : ∀ row ∈ rows, Fits variants row.shape row.value) :
    Fits variants (.record title (rows.map Row.field)) (.object (rows.map Row.entry))
  | choice {of : Choice} {key : Text} {content : Shape} {j : Json}
    (lookup : (variants of).lookup key = some content) (h : Fits variants content j) :
    Fits variants (.choice of) (.object [(key, j)])

/-! ## Fields by their names -/

section Rows

variable {rows : List Row}

theorem lookup_map_of_mem {β : Type} {f : Row → β} (names : (rows.map Row.name).Nodup) {row : Row}
    (h : row ∈ rows) : (rows.map fun row => (row.name, f row)).lookup row.name = some (f row) := by
  induction rows with
  | nil => cases h
  | cons other rows ih =>
    rw [List.map_cons, List.nodup_cons] at names
    rw [List.map_cons, List.lookup_cons]
    rcases List.mem_cons.mp h with rfl | hmem
    · rw [BEq.rfl]
    · have hne : row.name ≠ other.name := fun heq =>
        names.1 (heq ▸ List.mem_map_of_mem hmem)
      rw [beq_eq_false_iff_ne.mpr hne]
      exact ih names.2 hmem

theorem lookup_map_eq_none {β : Type} {f : Row → β} {key : Text}
    (h : key ∉ rows.map Row.name) : (rows.map fun row => (row.name, f row)).lookup key = none := by
  induction rows with
  | nil => rfl
  | cons other rows ih =>
    rw [List.map_cons, List.mem_cons, not_or] at h
    rw [List.map_cons, List.lookup_cons, beq_eq_false_iff_ne.mpr h.1]
    exact ih h.2

theorem printFields_map_cons (layout : Layout) (depth : Nat) (row : Row) :
    printFields layout depth ((row :: rows).map Row.entry)
      = (quote row.name ++ layout.colon ++ row.value.printAt layout depth)
        :: printFields layout depth (rows.map Row.entry) := rfl

/-- If every field has been found, all of them are picked. -/
theorem pickFields_of_lookup {found : List (Text × Json)}
    (h : ∀ row ∈ rows, found.lookup row.name = some row.value) :
    pickFields found (rows.map Row.field) = .ok (rows.map Row.entry) := by
  induction rows with
  | nil => rfl
  | cons row rows ih =>
    rw [List.forall_mem_cons] at h
    rw [List.map_cons, Row.field, pickFields, h.1, List.map_cons]
    simp only [ih h.2]
    rfl

/-- Fields are found whatever order they were found in. -/
theorem pickFields_reverse (names : (rows.map Row.name).Nodup) :
    pickFields (rows.map Row.entry).reverse (rows.map Row.field) = .ok (rows.map Row.entry) := by
  refine pickFields_of_lookup fun row hrow => ?_
  have hnames : (rows.reverse.map Row.name).Nodup := by
    rw [List.map_reverse]
    exact (List.reverse_perm _).nodup_iff.mpr names
  rw [← List.map_reverse]
  exact lookup_map_of_mem (f := Row.value) hnames (List.mem_reverse.mpr hrow)

theorem lookup_reverse_eq_none {row : Row} {rest : List Row}
    (names : ((rows ++ row :: rest).map Row.name).Nodup) :
    (rows.map Row.entry).reverse.lookup row.name = none := by
  rw [List.map_append, List.nodup_append] at names
  rw [← List.map_reverse]
  refine lookup_map_eq_none (f := Row.value) fun hmem => ?_
  rw [List.map_reverse, List.mem_reverse] at hmem
  exact names.2.2 _ hmem _ List.mem_cons_self rfl

end Rows

end SolidScript.Json
