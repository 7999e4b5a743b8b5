import SolidScript.Proofs.Json.Lexemes
import SolidScript.Proofs.Number.Whole
import SolidScript.Proofs.Text.Utf8
import SolidScript.Proofs.Toml.Tables
import SolidScript.Settings.Environment
import SolidScript.Settings.File

/-!
# Layers of settings

A `Layer` is what one source says about the settings. A file says what its entries say
(`IsGiven`), and two variables say what numbers they spell (`Says`). What is read from a source is
put over what was there before, so a source only counts where no later one speaks
(`parse_eq_ok_iff_isGiven`, `override_of_layers`).
-/

namespace SolidScript.Settings

/-- What a source says about the settings. -/
structure Layer where
  resolution : Option UInt32 := none
  meshConvexity : Option UInt32 := none

/-- The settings where a layer says nothing, and what the layer says elsewhere. -/
def Layer.over (layer : Layer) (s : Settings) : Settings where
  resolution := layer.resolution.getD s.resolution
  meshConvexity := layer.meshConvexity.or s.meshConvexity

/-! ## Files -/

/-- Under a name there stands a whole number of thirty-two bits, or nothing. -/
def IsEntry (es : Toml.Entries) (name : Text) : Option UInt32 → Prop
  | none => name ∉ es.names
  | some n => (name, .integer n.toNat) ∈ es

/-- The two settings among the entries of a file. -/
def AreEntries (es : Toml.Entries) (layer : Layer) : Prop :=
  IsEntry es "resolution".toList layer.resolution
    ∧ IsEntry es "import_convexity".toList layer.meshConvexity

/-- The text is a settings file that says what the layer says. -/
def IsGiven (t : Text) (layer : Layer) : Prop :=
  ∃ es, Toml.parse? t = some es ∧ AreEntries es layer

theorem ofToml_eq_ok_iff {v : Toml} {n : UInt32} : ofToml v = .ok n ↔ v = .integer n.toNat := by
  cases v with
  | integer i =>
    rw [ofToml, Toml.integer.injEq]
    split
    next h =>
      obtain ⟨k, rfl⟩ := Int.eq_ofNat_of_zero_le h.1
      have hk : k < UInt32.size := by exact_mod_cast h.2
      rw [Except.ok.injEq, Int.toNat_natCast, Int.natCast_inj]
      constructor
      · rintro rfl
        exact (UInt32.toNat_ofNat_of_lt' hk).symm
      · rintro rfl
        exact UInt32.ofNat_toNat
    next h =>
      have hn := n.toNat_lt
      simp only [reduceCtorEq, false_iff]
      rintro rfl
      exact h ⟨Int.natCast_nonneg _, by exact_mod_cast hn⟩
  | _ => simp [ofToml]

theorem isEntry_of_notMem {es : Toml.Entries} {name : Text} (h : name ∉ es.names)
    (n : Option UInt32) : IsEntry es name n ↔ n = none := by
  cases n with
  | none => simp [IsEntry, h]
  | some n =>
    simp only [reduceCtorEq, iff_false]
    exact fun hmem => h (List.mem_map_of_mem hmem)

theorem isEntry_cons_of_ne {es : Toml.Entries} {k name : Text} (h : k ≠ name) (v : Toml)
    (n : Option UInt32) : IsEntry ((k, v) :: es) name n ↔ IsEntry es name n := by
  cases n with
  | none => simp [IsEntry, Toml.Entries.names, h.symm]
  | some n => simp [IsEntry, h.symm]

/-- The only entry of its name. -/
theorem isEntry_cons_self {es : Toml.Entries} {name : Text} (h : name ∉ es.names) (v : Toml)
    (n : Option UInt32) :
    IsEntry ((name, v) :: es) name n ↔ ∃ k, ofToml v = .ok k ∧ n = some k := by
  cases n with
  | none => simp [IsEntry, Toml.Entries.names]
  | some n =>
    have hnot : (name, Toml.integer n.toNat) ∉ es := fun hmem => h (List.mem_map_of_mem hmem)
    simp [IsEntry, hnot, ← ofToml_eq_ok_iff, eq_comm]

theorem withEntries_cons_eq_ok_iff {e : Text × Toml} {es : Toml.Entries} {s t : Settings} :
    withEntries s (e :: es) = .ok t ↔
      ∃ next, withEntry s e = .ok next ∧ withEntries next es = .ok t := by
  rw [withEntries]
  cases withEntry s e <;> simp

/-- Entries are put over the settings, if those of the two names are numbers that fit. -/
theorem withEntries_eq_ok_iff {es : Toml.Entries} (h : es.names.Nodup) {s t : Settings} :
    withEntries s es = .ok t ↔ ∃ layer, AreEntries es layer ∧ t = layer.over s := by
  induction es generalizing s with
  | nil =>
    have hnil (layer : Layer) : AreEntries [] layer ↔ layer = {} := by
      rw [AreEntries, isEntry_of_notMem List.not_mem_nil, isEntry_of_notMem List.not_mem_nil]
      cases layer
      simp
    simp [withEntries, hnil, Layer.over, eq_comm]
  | cons e es ih =>
    obtain ⟨k, v⟩ := e
    obtain ⟨hk, hes⟩ := List.nodup_cons.mp h
    have hnames : "resolution".toList ≠ "import_convexity".toList := by decide
    simp only [withEntries_cons_eq_ok_iff, ih hes, withEntry]
    by_cases hresolution : k = "resolution".toList
    · subst hresolution
      simp only [if_true, Json.map_eq_ok_iff, AreEntries, isEntry_of_notMem hk,
        isEntry_cons_self hk, isEntry_cons_of_ne hnames]
      constructor
      · rintro ⟨_, ⟨n, hn, rfl⟩, ⟨_, convexity⟩, ⟨rfl, hconvexity⟩, rfl⟩
        exact ⟨⟨some n, convexity⟩, ⟨⟨n, hn, rfl⟩, hconvexity⟩, rfl⟩
      · rintro ⟨⟨_, convexity⟩, ⟨⟨n, hn, rfl⟩, hconvexity⟩, rfl⟩
        exact ⟨_, ⟨n, hn, rfl⟩, ⟨none, convexity⟩, ⟨rfl, hconvexity⟩, rfl⟩
    · by_cases hconvexity : k = "import_convexity".toList
      · subst hconvexity
        simp only [if_neg hresolution, if_true, Json.map_eq_ok_iff, AreEntries,
          isEntry_of_notMem hk, isEntry_cons_self hk, isEntry_cons_of_ne hresolution]
        constructor
        · rintro ⟨_, ⟨n, hn, rfl⟩, ⟨resolution, _⟩, ⟨hresolution, rfl⟩, rfl⟩
          exact ⟨⟨resolution, some n⟩, ⟨hresolution, ⟨n, hn, rfl⟩⟩, rfl⟩
        · rintro ⟨⟨resolution, _⟩, ⟨hresolution, ⟨n, hn, rfl⟩⟩, rfl⟩
          exact ⟨_, ⟨n, hn, rfl⟩, ⟨resolution, none⟩, ⟨hresolution, rfl⟩, rfl⟩
      · simp only [if_neg hresolution, if_neg hconvexity, AreEntries,
          isEntry_cons_of_ne hresolution, isEntry_cons_of_ne hconvexity, Except.ok.injEq,
          exists_eq_left']

/-- The settings of a text are what it says, over the usual ones. -/
theorem parse_eq_ok_iff_isGiven {t : Text} {s : Settings} :
    parse t = .ok s ↔ ∃ layer, IsGiven t layer ∧ s = layer.over {} := by
  rw [parse]
  cases hes : Toml.parse? t with
  | none => simp [IsGiven, hes]
  | some es =>
    have hiff := withEntries_eq_ok_iff (Toml.nodup_names_of_parse? hes) (s := {}) (t := s)
    simp only [IsGiven, hes, Option.some.injEq, exists_eq_left', ← hiff]
    cases withEntries {} es <;> simp

/-! ## Variables -/

/-- The text is a number of thirty-two bits between blanks. -/
def Spells (t : Text) (n : UInt32) : Prop :=
  ∃ before number after, t = before ++ number ++ after ∧ Whole.Spells number n.toNat
    ∧ (∀ c ∈ before, Text.isBlank c = true) ∧ ∀ c ∈ after, Text.isBlank c = true

/-- A variable that is absent says nothing, and another one the number that it spells. -/
inductive Says : Option Bytes → Option UInt32 → Prop
  | nothing : Says none none
  | number {t : Text} {n : UInt32} : Spells t n → Says (some (Utf8.encode t)) (some n)

/-- A variable that holds a text and spells no number. -/
def Misspells (value : Option Bytes) (t : Text) : Prop :=
  value = some (Utf8.encode t) ∧ ∀ n, ¬Spells t n

theorem word32?_trim_eq_some_iff {t : Text} {n : UInt32} :
    Whole.word32? t.trim = some n ↔ Spells t n := by
  rw [Whole.word32?_eq_some_iff]
  constructor
  · intro h
    obtain ⟨before, after, heq, hblank⟩ := Text.exists_blanks_trim t
    exact ⟨before, t.trim, after, heq, h, hblank⟩
  · rintro ⟨before, number, after, rfl, h, hbefore, hafter⟩
    rwa [Text.trim_append h.ne_nil hbefore h.not_isBlank hafter]

theorem Says.number?_eq {value : Option Bytes} {n : Option UInt32} (h : Says value n)
    (name : Text) : number? name value = .ok n := by
  cases h with
  | nothing => rfl
  | number h =>
    rw [number?, Option.bind_some, Utf8.decode?_encode]
    dsimp only
    rw [word32?_trim_eq_some_iff.mpr h]

theorem Misspells.number?_eq {value : Option Bytes} {t : Text} (h : Misspells value t)
    (name : Text) : number? name value = .error ⟨name, t⟩ := by
  obtain ⟨rfl, hnot⟩ := h
  rw [number?, Option.bind_some, Utf8.decode?_encode]
  dsimp only
  rw [Option.eq_none_iff_forall_ne_some.mpr fun n hn => hnot n (word32?_trim_eq_some_iff.mp hn)]

theorem Says.not_misspells {value : Option Bytes} {n : Option UInt32} {t : Text}
    (h : Says value n) : ¬Misspells value t := by
  intro hbad
  have heq := (h.number?_eq []).symm.trans (hbad.number?_eq [])
  cases heq

/-- A variable whose value is a text, if it has one, either says something or is misspelled. -/
theorem says_or_misspells {value : Option Bytes}
    (h : ∀ bytes, value = some bytes → ∃ t, bytes = Utf8.encode t) :
    (∃ n, Says value n) ∨ ∃ t, Misspells value t := by
  cases value with
  | none => exact .inl ⟨none, .nothing⟩
  | some bytes =>
    obtain ⟨t, rfl⟩ := h bytes rfl
    by_cases hn : ∃ n, Spells t n
    · obtain ⟨n, hn⟩ := hn
      exact .inl ⟨some n, .number hn⟩
    · exact .inr ⟨t, rfl, not_exists.mp hn⟩

/-! ## Variables over settings -/

theorem override_of_layers {environment : Environment} {resolution meshConvexity : Option UInt32}
    (hresolution : Says (environment resolutionVariable) resolution)
    (hconvexity : Says (environment convexityVariable) meshConvexity) (s : Settings) :
    s.override environment = (Layer.over ⟨resolution, meshConvexity⟩ s, none) := by
  rw [override, hresolution.number?_eq]
  dsimp only
  rw [hconvexity.number?_eq]
  cases meshConvexity <;> rfl

theorem override_of_misspells_resolution {environment : Environment} {t : Text}
    (h : Misspells (environment resolutionVariable) t) (s : Settings) :
    s.override environment = (s, some ⟨resolutionVariable, t⟩) := by
  rw [override, h.number?_eq]

theorem override_of_misspells_convexity {environment : Environment} {n : Option UInt32} {t : Text}
    (hresolution : Says (environment resolutionVariable) n)
    (h : Misspells (environment convexityVariable) t) (s : Settings) :
    s.override environment = (Layer.over ⟨n, none⟩ s, some ⟨convexityVariable, t⟩) := by
  rw [override, hresolution.number?_eq]
  dsimp only
  rw [h.number?_eq]
  rfl

end SolidScript.Settings
