import Mathlib.Data.List.Nodup
import SolidScript.Proofs.Json.Fits
import SolidScript.Proofs.Json.Grammar

/-!
# The languages of values

`Spelled` says which texts spell a value that a shape asks for: the language of the value, as the
shape has it. The fields of an object may come in any order; `missing` are the ones that have not
come yet, and there is one less of them with each that comes (`missing_cons`).
-/

namespace SolidScript.Json

/-! ## The languages of values -/

/-- The languages of the fields of a record, each with its name. -/
inductive FieldsSpelled (R : Shape → Json → Language → Prop) :
    List (Text × Shape) → List (Text × Json) → List (Text × Language) → Prop where
  | nil : FieldsSpelled R [] [] []
  | cons {name : Text} {shape : Shape} {j : Json} {L : Language} {fields : List (Text × Shape)}
    {fs : List (Text × Json)} {ls : List (Text × Language)} (h : R shape j L)
    (hrest : FieldsSpelled R fields fs ls) :
    FieldsSpelled R ((name, shape) :: fields) ((name, j) :: fs) ((name, L) :: ls)

section FieldsSpelled

variable {R : Shape → Json → Language → Prop} {fields : List (Text × Shape)}
  {fs : List (Text × Json)} {ls : List (Text × Language)}

theorem FieldsSpelled.names_eq (h : FieldsSpelled R fields fs ls) :
    ls.map Prod.fst = fields.map Prod.fst := by
  induction h with
  | nil => rfl
  | cons _ _ ih => rw [List.map_cons, List.map_cons, ih]

theorem FieldsSpelled.values_names_eq (h : FieldsSpelled R fields fs ls) :
    fs.map Prod.fst = fields.map Prod.fst := by
  induction h with
  | nil => rfl
  | cons _ _ ih => rw [List.map_cons, List.map_cons, ih]

/-- A language belongs to a field and to its value. -/
theorem FieldsSpelled.exists_of_mem (h : FieldsSpelled R fields fs ls) {name : Text}
    {L : Language} (hmem : (name, L) ∈ ls) :
    ∃ shape j, (name, shape) ∈ fields ∧ (name, j) ∈ fs ∧ R shape j L := by
  induction h with
  | nil => cases hmem
  | @cons name' shape j L' fields fs ls hL _ ih =>
    rcases List.mem_cons.mp hmem with heq | hmem
    · cases heq
      exact ⟨shape, j, List.mem_cons_self, List.mem_cons_self, hL⟩
    · obtain ⟨shape, j, hfield, hvalue, hL⟩ := ih hmem
      exact ⟨shape, j, List.mem_cons_of_mem _ hfield, List.mem_cons_of_mem _ hvalue, hL⟩

end FieldsSpelled

/-- The language of a value of the given shape. -/
inductive Spelled (variants : Choice → List (Text × Shape)) : Shape → Json → Language → Prop where
  | number (x : Binary64) : Spelled variants .number (.number x) (.number x)
  | flag (b : Bool) : Spelled variants .flag (.bool b) (.flag b)
  | text (s : Text) : Spelled variants .text (.string s) (.string s)
  | path (s : Text) : Spelled variants .path (.string s) (.string s)
  | vector (x y z : Binary64) : Spelled variants .vector (.array [.number x, .number y, .number z])
    (.array [.number x, .number y, .number z])
  | list {item : Shape} {rows : List (Json × Language)}
    (h : ∀ row ∈ rows, Spelled variants item row.1 row.2) :
    Spelled variants (.list item) (.array (rows.map Prod.fst)) (.array (rows.map Prod.snd))
  | record {title : Shape.Title} {fields : List (Text × Shape)} {fs : List (Text × Json)}
    {ls : List (Text × Language)} (names : (fields.map Prod.fst).Nodup)
    (h : FieldsSpelled (Spelled variants) fields fs ls) :
    Spelled variants (.record title fields) (.object fs) (.record ls)
  | choice {of : Choice} {key : Text} {content : Shape} {j : Json} {L : Language}
    (lookup : (variants of).lookup key = some content) (h : Spelled variants content j L) :
    Spelled variants (.choice of) (.object [(key, j)]) (.entry key L)

section Fits

variable {R : Shape → Json → Language → Prop}

theorem exists_rows {item : Shape} {js : List Json} (h : ∀ j ∈ js, ∃ L, R item j L) :
    ∃ rows : List (Json × Language), js = rows.map Prod.fst ∧ ∀ row ∈ rows, R item row.1 row.2 := by
  induction js with
  | nil => exact ⟨[], rfl, List.forall_mem_nil _⟩
  | cons j js ih =>
    obtain ⟨⟨L, hL⟩, hothers⟩ := List.forall_mem_cons.mp h
    obtain ⟨rows, rfl, hrows⟩ := ih hothers
    exact ⟨(j, L) :: rows, rfl, List.forall_mem_cons.mpr ⟨hL, hrows⟩⟩

theorem exists_fieldsSpelled {rows : List Row} (h : ∀ row ∈ rows, ∃ L, R row.shape row.value L) :
    ∃ ls, FieldsSpelled R (rows.map Row.field) (rows.map Row.entry) ls := by
  induction rows with
  | nil => exact ⟨[], .nil⟩
  | cons row rows ih =>
    obtain ⟨⟨L, hL⟩, hothers⟩ := List.forall_mem_cons.mp h
    obtain ⟨ls, hls⟩ := ih hothers
    exact ⟨(row.name, L) :: ls, .cons hL hls⟩

end Fits

/-- A value that fits has a language. -/
theorem Fits.exists_spelled {variants : Choice → List (Text × Shape)} {shape : Shape} {j : Json}
    (h : Fits variants shape j) : ∃ L, Spelled variants shape j L := by
  induction h with
  | number x => exact ⟨_, .number x⟩
  | flag b => exact ⟨_, .flag b⟩
  | text s => exact ⟨_, .text s⟩
  | path s => exact ⟨_, .path s⟩
  | vector x y z => exact ⟨_, .vector x y z⟩
  | list _ ih =>
    obtain ⟨rows, rfl, hrows⟩ := exists_rows ih
    exact ⟨_, .list hrows⟩
  | record title rows names _ ih =>
    obtain ⟨ls, hls⟩ := exists_fieldsSpelled ih
    refine ⟨_, .record ?_ hls⟩
    rwa [List.map_map]
  | choice lookup _ ih =>
    obtain ⟨L, hL⟩ := ih
    exact ⟨_, .choice lookup hL⟩

/-! ## Languages with texts -/

namespace Language

/-- There is a text in the language. -/
def IsInhabited (L : Language) : Prop := ∃ levels t r, L levels t r

/-- There is a text in the language that keeps to the number of brackets. -/
def HasText (L : Language) (levels : Nat) : Prop := ∃ t r, L levels t r

theorem HasText.isInhabited {L : Language} {levels : Nat} (h : L.HasText levels) : L.IsInhabited :=
  ⟨levels, h⟩

theorem Items.hasText {levels : Nat} {first : Bool} {Ls : List Language} {t r : Text}
    (h : Items levels first Ls t r) : ∀ L ∈ Ls, L.HasText levels := by
  induction h with
  | close => exact List.forall_mem_nil _
  | item _ h _ ih => exact List.forall_mem_cons.mpr ⟨⟨_, _, h⟩, ih⟩

theorem Fields.hasText {levels : Nat} {names : List Text} {first : Bool}
    {missing : List (Text × Language)} {t r : Text} (h : Fields levels names first missing t r)
    (hnames : (missing.map Prod.fst).Nodup) : ∀ f ∈ missing, f.2.HasText levels := by
  induction h with
  | close => exact List.forall_mem_nil _
  | @field _ missing name L _ _ _ _ _ _ _ _ hmem _ h _ ih =>
    intro f hf
    by_cases hname : f.1 = name
    · rw [List.inj_on_of_nodup_map hnames hf hmem hname]
      exact ⟨_, _, h⟩
    · have hsub : ((missing.filter fun f => f.1 ≠ name).map Prod.fst).Nodup :=
        hnames.sublist (List.filter_sublist.map Prod.fst)
      exact ih hsub f (List.mem_filter.mpr ⟨hf, by simpa using hname⟩)
  | unknown _ _ _ _ _ _ ih => exact ih hnames

/-- The items of an array have a bracket less. -/
theorem hasText_of_array {Ls : List Language} {levels : Nat} (h : (array Ls).HasText levels) :
    ∃ inner, levels = inner + 1 ∧ ∀ L ∈ Ls, L.HasText inner := by
  obtain ⟨t, r, ⟨hitems⟩⟩ := h
  exact ⟨_, rfl, hitems.hasText⟩

theorem hasText_of_record {fields : List (Text × Language)} {levels : Nat}
    (hnames : (fields.map Prod.fst).Nodup) (h : (record fields).HasText levels) :
    ∃ inner, levels = inner + 1 ∧ ∀ f ∈ fields, f.2.HasText inner := by
  obtain ⟨t, r, hobject | harray⟩ := h
  · obtain ⟨hfields⟩ := hobject
    exact ⟨_, rfl, hfields.hasText hnames⟩
  · obtain ⟨inner, rfl, hitems⟩ := hasText_of_array ⟨t, r, harray⟩
    exact ⟨inner, rfl, fun f hf => hitems f.2 (List.mem_map_of_mem hf)⟩

theorem hasText_of_entry {key : Text} {content : Language} {levels : Nat}
    (h : (entry key content).HasText levels) :
    ∃ inner, levels = inner + 1 ∧ content.HasText inner := by
  obtain ⟨t, r, ⟨_, _, _, hcontent, _⟩⟩ := h
  exact ⟨_, rfl, _, _, hcontent⟩

theorem isInhabited_of_array {Ls : List Language} (h : (array Ls).IsInhabited) :
    ∀ L ∈ Ls, L.IsInhabited := by
  obtain ⟨levels, h⟩ := h
  obtain ⟨inner, -, hitems⟩ := hasText_of_array h
  exact fun L hL => (hitems L hL).isInhabited

theorem isInhabited_of_record {fields : List (Text × Language)}
    (hnames : (fields.map Prod.fst).Nodup) (h : (record fields).IsInhabited) :
    ∀ f ∈ fields, f.2.IsInhabited := by
  obtain ⟨levels, h⟩ := h
  obtain ⟨inner, -, hfields⟩ := hasText_of_record hnames h
  exact fun f hf => (hfields f hf).isInhabited

theorem isInhabited_of_entry {key : Text} {content : Language}
    (h : (entry key content).IsInhabited) : content.IsInhabited := by
  obtain ⟨levels, h⟩ := h
  obtain ⟨inner, -, hcontent⟩ := hasText_of_entry h
  exact hcontent.isInhabited

end Language

/-! ## Shapes with different names -/

mutual

/-- The fields of every record have different names. -/
def isDistinct : Shape → Bool
  | .list item => isDistinct item
  | .record _ fields => decide (fields.map Prod.fst).Nodup && areDistinct fields
  | _ => true

def areDistinct : List (Text × Shape) → Bool
  | [] => true
  | (_, shape) :: fields => isDistinct shape && areDistinct fields

end

theorem isDistinct_of_mem {fields : List (Text × Shape)} (h : areDistinct fields = true) :
    ∀ f ∈ fields, isDistinct f.2 = true := by
  induction fields with
  | nil => exact List.forall_mem_nil _
  | cons f fields ih =>
    rw [areDistinct, Bool.and_eq_true] at h
    exact List.forall_mem_cons.mpr ⟨h.1, ih h.2⟩

/-! ## Fields by their names -/

section Lookup

variable {β : Type} {key : Text} {fields : List (Text × β)}

theorem mem_of_lookup {b : β} (h : fields.lookup key = some b) : (key, b) ∈ fields := by
  obtain ⟨before, after, rfl, -⟩ := List.lookup_eq_some_iff.mp h
  exact List.mem_append_right before List.mem_cons_self

theorem lookup_of_mem (names : (fields.map Prod.fst).Nodup) {b : β} (h : (key, b) ∈ fields) :
    fields.lookup key = some b := by
  have hsome : (fields.lookup key).isSome = true :=
    List.lookup_isSome_iff.mpr ⟨(key, b), h, BEq.rfl⟩
  obtain ⟨b', hb'⟩ := Option.isSome_iff_exists.mp hsome
  have hsame := List.inj_on_of_nodup_map names (mem_of_lookup hb') h rfl
  rw [hb', (Prod.mk.inj hsame).2]

theorem lookup_eq_none_of_notMem (h : key ∉ fields.map Prod.fst) : fields.lookup key = none := by
  rw [List.lookup_eq_none_iff]
  intro p hp
  rw [bne_iff_ne]
  rintro rfl
  exact h (List.mem_map_of_mem hp)

end Lookup

/-- What has been found, without the languages. -/
def found (done : List (Text × Json × Language)) : List (Text × Json) :=
  done.map fun f => (f.1, f.2.1)

theorem lookup_found (done : List (Text × Json × Language)) (key : Text) :
    (found done).lookup key = (done.lookup key).map Prod.fst := by
  induction done with
  | nil => rfl
  | cons f done ih =>
    obtain ⟨name, j, L⟩ := f
    rw [found, List.map_cons, List.lookup_cons, List.lookup_cons]
    cases key == name with
    | true => rfl
    | false => exact ih

/-- The fields whose names have not been found. -/
def missing (done : List (Text × Json × Language)) (ls : List (Text × Language)) :
    List (Text × Language) :=
  ls.filter fun f => (done.lookup f.1).isNone

theorem missing_nil (ls : List (Text × Language)) : missing [] ls = ls :=
  List.filter_eq_self.mpr fun _ _ => rfl

theorem missing_cons (key : Text) (j : Json) (L : Language) (done : List (Text × Json × Language))
    (ls : List (Text × Language)) :
    missing ((key, j, L) :: done) ls = (missing done ls).filter fun f => f.1 ≠ key := by
  rw [missing, missing, List.filter_filter]
  refine List.filter_congr fun f _ => ?_
  rw [List.lookup_cons]
  by_cases hkey : f.1 = key
  · simp [hkey]
  · simp [beq_eq_false_iff_ne.mpr hkey, hkey]

end SolidScript.Json
