import SolidScript.Proofs.Settings.Reload

/-!
# Variables that are passed over

A variable that overrides a setting should either count or be told of: settings that `CountEvery`
variable are the ones before with the numbers of the variables in place, or the first variable that
holds anything but a number is named, and from it on nothing has been changed. Variables whose bytes
are no text are passed over instead. So every variable counts exactly if none of those that are
looked at is broken (`countEvery_override_iff`), and however that is, each variable that is a text
counts (`override_texts`).

The main statement is `countEvery_iff_areRead`.
-/

namespace SolidScript

open Machine

namespace Settings

/-- A variable holds a text, if it is present. -/
def IsText (value : Option Bytes) : Prop :=
  ∀ bytes, value = some bytes → ∃ t, bytes = Utf8.encode t

/-- No variable that is looked at is broken. The second one is not looked at where the first is at
fault. -/
def AreRead (environment : Environment) : Prop :=
  IsText (environment resolutionVariable)
    ∧ ((∃ n, Says (environment resolutionVariable) n) → IsText (environment convexityVariable))

/-- Every variable that is present counts for the settings. -/
inductive CountEvery (environment : Environment) (s : Settings) :
    Settings → Option Fault → Prop
  | numbers {layer : Layer} : Says (environment resolutionVariable) layer.resolution →
      Says (environment convexityVariable) layer.meshConvexity →
      CountEvery environment s (layer.over s) none
  | resolution {value : Text} : (∀ n, ¬Says (environment resolutionVariable) n) →
      CountEvery environment s s (some (.badVariable ⟨resolutionVariable, value⟩))
  | meshConvexity {n : Option UInt32} {value : Text} :
      Says (environment resolutionVariable) n →
      (∀ k, ¬Says (environment convexityVariable) k) →
      CountEvery environment s (Layer.over ⟨n, none⟩ s)
        (some (.badVariable ⟨convexityVariable, value⟩))

/-- What is told after the variables have been looked at. -/
def told (s : Settings) (environment : Environment) : Option Fault :=
  (s.override environment).2.map .badVariable

variable {s t : Settings} {environment : Environment} {value : Option Bytes} {fault : Option Fault}

/-! ## Single variables -/

theorem Says.isText {n : Option UInt32} (h : Says value n) : IsText value := by
  intro bytes hbytes
  cases h with
  | nothing => cases hbytes
  | number _ => exact ⟨_, (Option.some.inj hbytes).symm⟩

theorem Misspells.not_says {t : Text} (h : Misspells value t) (n : Option UInt32) :
    ¬Says value n := fun hn => hn.not_misspells h

/-- A fault is told of the variable that is looked at, and only where it holds a text. -/
theorem isText_of_number? {name : Text} {bad : BadVariable} (h : number? name value = .error bad) :
    bad.name = name ∧ IsText value := by
  rw [number?] at h
  cases htext : value.bind Utf8.decode? with
  | none =>
    rw [htext] at h
    cases h
  | some t =>
    rw [htext] at h
    obtain ⟨bytes, rfl, hdecode⟩ := Option.bind_eq_some_iff.mp htext
    refine ⟨?_, fun other hother => ⟨t, ?_⟩⟩
    · dsimp only at h
      split at h
      next =>
        cases h
        rfl
      next => cases h
    · rw [← Option.some.inj hother, Utf8.encode_of_decode? hdecode]

/-- A fault is told of the first variable that has one. -/
theorem override_bad_cases {bad : BadVariable} (h : (s.override environment).2 = some bad) :
    number? resolutionVariable (environment resolutionVariable) = .error bad
      ∨ number? convexityVariable (environment convexityVariable) = .error bad := by
  rw [override] at h
  cases hresolution : number? resolutionVariable (environment resolutionVariable) with
  | error other =>
    rw [hresolution] at h
    exact .inl (congrArg _ (Option.some.inj h))
  | ok n =>
    rw [hresolution] at h
    dsimp only at h
    cases hconvexity : number? convexityVariable (environment convexityVariable) with
    | error other =>
      rw [hconvexity] at h
      exact .inr (congrArg _ (Option.some.inj h))
    | ok k =>
      rw [hconvexity] at h
      cases k <;> cases h

/-! ## Both variables -/

/-- Where nothing is told, each variable has said what is in place now. -/
theorem CountEvery.exists_layer (h : CountEvery environment s t none) :
    ∃ layer : Layer, Says (environment resolutionVariable) layer.resolution
      ∧ Says (environment convexityVariable) layer.meshConvexity ∧ t = layer.over s := by
  cases h with
  | numbers hresolution hconvexity => exact ⟨_, hresolution, hconvexity, rfl⟩

theorem override_eq_bad_of_told {bad : BadVariable}
    (h : told s environment = some (.badVariable bad)) : (s.override environment).2 = some bad := by
  obtain ⟨other, hother, heq⟩ := Option.map_eq_some_iff.mp h
  cases heq
  exact hother

theorem names_ne : resolutionVariable ≠ convexityVariable := by decide

/-- Where no variable is broken every one of them counts. -/
theorem countEvery_of_areRead (h : AreRead environment) (s : Settings) :
    CountEvery environment s (s.override environment).1 (told s environment) := by
  rcases says_or_misspells h.1 with ⟨n, hn⟩ | ⟨t, ht⟩
  · rcases says_or_misspells (h.2 ⟨n, hn⟩) with ⟨k, hk⟩ | ⟨t, ht⟩
    · rw [told, override_of_layers hn hk]
      exact .numbers hn hk
    · rw [told, override_of_misspells_convexity hn ht]
      exact .meshConvexity hn ht.not_says
  · rw [told, override_of_misspells_resolution ht]
    exact .resolution ht.not_says

/-- Where a variable is broken what is told does not go with every variable counting. -/
theorem areRead_of_countEvery (h : CountEvery environment s t fault)
    (htold : told s environment = fault) : AreRead environment := by
  cases h with
  | numbers hresolution hconvexity => exact ⟨hresolution.isText, fun _ => hconvexity.isText⟩
  | resolution hno =>
    refine ⟨?_, fun ⟨n, hn⟩ => absurd hn (hno n)⟩
    rcases override_bad_cases (override_eq_bad_of_told htold) with h | h
    · exact (isText_of_number? h).2
    · exact absurd (isText_of_number? h).1 names_ne
  | meshConvexity hresolution hno =>
    refine ⟨hresolution.isText, fun _ => ?_⟩
    rcases override_bad_cases (override_eq_bad_of_told htold) with h | h
    · exact absurd (isText_of_number? h).1 names_ne.symm
    · exact (isText_of_number? h).2

theorem countEvery_override_iff (s : Settings) (environment : Environment) :
    CountEvery environment s (s.override environment).1 (told s environment)
      ↔ AreRead environment :=
  ⟨fun h => areRead_of_countEvery h rfl, fun h => countEvery_of_areRead h s⟩

/-! ## Broken variables -/

/-- The variables that are texts. Others count as absent. -/
def texts (environment : Environment) : Environment := fun name =>
  (environment name).filter fun bytes => (Utf8.decode? bytes).isSome

theorem number?_texts (name variableName : Text) :
    number? name (texts environment variableName) = number? name (environment variableName) := by
  have hbind : (texts environment variableName).bind Utf8.decode?
      = (environment variableName).bind Utf8.decode? := by
    rw [texts]
    cases environment variableName with
    | none => rfl
    | some bytes =>
      cases hdecode : Utf8.decode? bytes with
      | none => simp [Option.filter, hdecode]
      | some t => simp [Option.filter, hdecode]
  rw [number?, number?, hbind]

/-- A broken variable is passed over as if it were absent. -/
theorem override_texts (s : Settings) (environment : Environment) :
    s.override (texts environment) = s.override environment := by
  rw [override, override, number?_texts, number?_texts]

theorem areRead_texts (environment : Environment) : AreRead (texts environment) := by
  have htext (name : Text) : IsText (texts environment name) := by
    intro bytes hbytes
    obtain ⟨-, hsome⟩ := Option.filter_eq_some_iff.mp hbytes
    obtain ⟨t, ht⟩ := Option.isSome_iff_exists.mp hsome
    exact ⟨t, (Utf8.encode_of_decode? ht).symm⟩
  exact ⟨htext _, fun _ => htext _⟩

theorem countEvery_texts (s : Settings) (environment : Environment) :
    CountEvery (texts environment) s (s.override environment).1 (told s environment) := by
  have hcount := countEvery_of_areRead (areRead_texts environment) s
  rwa [told, override_texts] at hcount

/-! ## Loading -/

/-- How loading ends: with the settings, unless there is a fault to be told. -/
def ending (t : Settings) : Option Fault → Except Fault Settings
  | none => .ok t
  | some fault => .error fault

theorem overridden_eq_ending (machine : Machine) (s : Settings) :
    machine.overridden s = ending (s.override machine.valueOf).1 (told s machine.valueOf) := by
  rw [Machine.overridden, told]
  obtain ⟨t, _ | bad⟩ := s.override machine.valueOf <;> rfl

/-- What has ended in one way has been told one thing. -/
theorem fault_eq_of_ending {t' : Settings} {fault' : Option Fault}
    (h : ending t fault = ending t' fault') : fault = fault' := by
  cases fault with
  | none => cases fault' with
    | none => rfl
    | some _ => cases h
  | some _ => cases fault' with
    | none => cases h
    | some _ => rw [Except.error.inj h]

/-- Loading ends as it should exactly if no variable is broken. -/
theorem exists_countEvery_iff (machine : Machine) (s : Settings) :
    (∃ t fault, CountEvery machine.valueOf s t fault ∧ machine.overridden s = ending t fault)
      ↔ AreRead machine.valueOf := by
  rw [overridden_eq_ending]
  constructor
  · rintro ⟨t, fault, hcount, hending⟩
    exact areRead_of_countEvery hcount (fault_eq_of_ending hending)
  · intro h
    exact ⟨_, _, countEvery_of_areRead h s, rfl⟩

/-- What is being done when a fault is told hides no difference. -/
theorem mapError_injective {α ε ε' : Type} {f : ε → ε'} (hf : Function.Injective f) :
    Function.Injective (Except.mapError f : Except ε α → Except ε' α) := by
  rintro (e | a) (e' | a') h
  · rw [hf (Except.error.inj h)]
  · cases h
  · cases h
  · rw [Except.ok.inj h]

end Settings

open Settings CommandLine

/-- **Every variable counts exactly if no variable is broken**, both for settings that the variables
are put over and for settings that are loaded. Whatever the variables are, those that are texts
count. -/
theorem countEvery_iff_areRead (machine : Machine) :
    (∀ s : Settings,
        (CountEvery machine.valueOf s (machine.answer (Files.override s)).1
            (machine.answer (Files.override s)).2 ↔ AreRead machine.valueOf)
          ∧ CountEvery (texts machine.valueOf) s (machine.answer (Files.override s)).1
            (machine.answer (Files.override s)).2)
      ∧ (∀ given, FileSays machine none given →
        ((∃ t fault, CountEvery machine.valueOf (given.over {}) t fault
            ∧ machine.answer Files.effectiveSettings.run = ending t fault)
          ↔ AreRead machine.valueOf))
      ∧ ∀ file given, FileSays machine file given →
        ((∃ t fault, CountEvery machine.valueOf (given.over {}) t fault
            ∧ machine.answer (settings file).run
              = (ending t fault).mapError (⟨variableContext file, ·⟩))
          ↔ AreRead machine.valueOf) := by
  refine ⟨fun s => ?_, fun given hgiven => ?_, fun file given hgiven => ?_⟩
  · rw [(Files.does_override machine s).answer_eq]
    exact ⟨countEvery_override_iff s machine.valueOf, countEvery_texts s machine.valueOf⟩
  · rw [(does_effectiveSettings machine).answer_eq, ofFile_of_fileSays hgiven]
    exact exists_countEvery_iff machine (given.over {})
  · have hinjective : Function.Injective (Failure.mk (variableContext file)) :=
      fun _ _ h => (Failure.mk.inj h).2
    rw [(does_settings machine file).answer_eq, loaded_of_fileSays hgiven]
    simp only [(mapError_injective hinjective).eq_iff]
    exact exists_countEvery_iff machine (given.over {})

/-- The byte FF is no text. -/
theorem not_isText_of_broken : ¬IsText (some [0xFF]) := by
  intro h
  obtain ⟨t, ht⟩ := h _ rfl
  have hdecode : Utf8.decode? [0xFF] = none := by decide +kernel
  rw [ht, Utf8.decode?_encode] at hdecode
  cases hdecode

/-- A file that sets both, a first variable that spells no number, and a second one that is broken:
the first is told of. Without the first, nothing is told of the second. -/
theorem countEvery_iff_areRead_of_broken_hint :
    let disk : Disk := ⟨[([Utf8.encode "scadkit.toml".toList],
      .file (Utf8.encode (Settings.toToml ⟨7, some 3⟩)))]⟩
    let broken : Text × Bytes := (convexityVariable, [0xFF])
    let misspelled : Machine :=
      { disk, environment := [broken, (resolutionVariable, Utf8.encode "5 6".toList)] }
    let silent : Machine := { disk, environment := [broken] }
    let given : Layer := ⟨some 7, some 3⟩
    FileSays misspelled none given ∧ FileSays silent none given
      ∧ (∃ t fault, CountEvery misspelled.valueOf (given.over {}) t fault
        ∧ misspelled.answer Files.effectiveSettings.run = ending t fault)
      ∧ silent.answer Files.effectiveSettings.run = .ok ⟨7, some 3⟩
      ∧ ¬∃ t fault, CountEvery silent.valueOf (given.over {}) t fault
        ∧ silent.answer Files.effectiveSettings.run = ending t fault := by
  intro disk broken misspelled silent given
  have hpath : consulted misspelled none = some Files.usualSettings := by decide +kernel
  have hpath' : consulted silent none = some Files.usualSettings := by decide +kernel
  have hfile : FileSays misspelled none given :=
    .entries hpath (by decide +kernel) (isGiven_toToml ⟨7, some 3⟩)
  have hfile' : FileSays silent none given :=
    .entries hpath' (by decide +kernel) (isGiven_toToml ⟨7, some 3⟩)
  have hread : AreRead misspelled.valueOf := by
    refine ⟨fun bytes hbytes => ⟨_, (Option.some.inj hbytes).symm⟩, fun ⟨n, hn⟩ => ?_⟩
    have hnumber : number? resolutionVariable (misspelled.valueOf resolutionVariable)
        = .error ⟨resolutionVariable, "5 6".toList⟩ := by decide +kernel
    cases (hn.number?_eq resolutionVariable).symm.trans hnumber
  have hbroken : ¬AreRead silent.valueOf := fun h => not_isText_of_broken (h.2 ⟨none, .nothing⟩)
  obtain ⟨-, hload, -⟩ := countEvery_iff_areRead misspelled
  obtain ⟨-, hload', -⟩ := countEvery_iff_areRead silent
  exact ⟨hfile, hfile', (hload given hfile).mpr hread, by decide +kernel,
    fun h => hbroken ((hload' given hfile').mp h)⟩

/-- A variable that is present and holds no number is passed over: nothing is told of it. -/
theorem not_countEvery_override_of_broken :
    let machine : Machine := { environment := [(resolutionVariable, [0xFF])] }
    machine.answer (Files.override {}) = ({}, none)
      ∧ (∀ n, ¬Says (machine.valueOf resolutionVariable) n)
      ∧ ¬CountEvery machine.valueOf {} (machine.answer (Files.override {})).1
        (machine.answer (Files.override {})).2 := by
  intro machine
  have hanswer : machine.answer (Files.override {}) = ({}, none) := by decide +kernel
  have hno (n : Option UInt32) : ¬Says (machine.valueOf resolutionVariable) n :=
    fun h => not_isText_of_broken h.isText
  refine ⟨hanswer, hno, fun h => ?_⟩
  rw [hanswer] at h
  obtain ⟨layer, hresolution, -⟩ := h.exists_layer
  exact hno layer.resolution hresolution

end SolidScript
