import SolidScript.Proofs.CommandLine.Settings
import SolidScript.Proofs.Toml.Lines

/-!
# Settings that have been saved

A file of settings has a line for each setting that is present, so it says just what the settings
are (`Settings.parse_toToml`). Variables that have been looked at change nothing when they are
looked at again, nor when they are gone (`Settings.override_again`). So whatever the settings in
force come from, once they are in a file they are the settings in force.

The main statement is `keepsSettings`.
-/

namespace SolidScript

open Machine

/-! ## What a file of settings says -/

namespace Settings

/-- The settings that are present, by their names. -/
def rows (s : Settings) : List (Text × Nat) :=
  ("resolution".toList, s.resolution.toNat)
    :: (s.meshConvexity.map fun n => ("import_convexity".toList, n.toNat)).toList

theorem toToml_eq_numberLines (s : Settings) : s.toToml = Toml.numberLines s.rows := by
  have hresolution (n : Nat) : "resolution = ".toList ++ digits n ++ ['\n']
      = Toml.numberLine "resolution".toList n := rfl
  have hhint (n : Nat) : "import_convexity = ".toList ++ digits n ++ ['\n']
      = Toml.numberLine "import_convexity".toList n := rfl
  unfold toToml
  rw [hresolution, rows, Toml.numberLines, List.flatMap_cons]
  cases s.meshConvexity with
  | none => rfl
  | some n =>
    dsimp only
    rw [hhint]
    exact congrArg _ (List.append_nil _).symm

theorem isRow_of_word {name : Text} (h : name ≠ [] ∧ name.all Toml.isBare = true) (n : UInt32) :
    Toml.IsRow (name, n.toNat) := by
  have hn : n.toNat < 2 ^ 32 := n.toNat_lt
  exact ⟨⟨h.1, List.all_eq_true.mp h.2⟩, hn.trans (by omega)⟩

theorem parse?_toToml (s : Settings) :
    Toml.parse? s.toToml = some (s.rows.map Toml.numberEntry) := by
  have hrow : Toml.IsRow ("resolution".toList, s.resolution.toNat) :=
    isRow_of_word (by decide) s.resolution
  rw [toToml_eq_numberLines]
  refine Toml.parse?_numberLines ?_ ?_
  · rw [rows, List.forall_mem_cons]
    refine ⟨hrow, ?_⟩
    cases s.meshConvexity with
    | none => exact List.forall_mem_nil _
    | some n => exact List.forall_mem_singleton.mpr (isRow_of_word (by decide) n)
  · rw [rows]
    cases s.meshConvexity with
    | none => exact (by decide : ["resolution".toList].Nodup)
    | some n => exact (by decide : ["resolution".toList, "import_convexity".toList].Nodup)

/-- The file says what the settings are, and nothing about a hint that there is not. -/
theorem isGiven_toToml (s : Settings) : IsGiven s.toToml ⟨some s.resolution, s.meshConvexity⟩ := by
  refine ⟨_, parse?_toToml s, List.mem_cons_self, ?_⟩
  rw [rows]
  cases s.meshConvexity with
  | none => exact (by decide : "import_convexity".toList ∉ ["resolution".toList])
  | some n => exact List.mem_cons_of_mem _ List.mem_cons_self

/-- **Settings are read back** from the file that shows them. -/
theorem parse_toToml (s : Settings) : parse s.toToml = .ok s :=
  parse_eq_ok_iff_isGiven.mpr ⟨_, isGiven_toToml s, by cases s; simp [Layer.over]⟩

/-! ## Variables that are looked at again -/

variable {s t : Settings} {environment later : Environment}

/-- Settings that the variables have been put over, none of these being at fault. -/
theorem override_eq_ok_iff : s.override environment = (t, none) ↔ ∃ layer : Layer,
    number? resolutionVariable (environment resolutionVariable) = .ok layer.resolution
      ∧ number? convexityVariable (environment convexityVariable) = .ok layer.meshConvexity
      ∧ t = layer.over s := by
  rw [override]
  cases number? resolutionVariable (environment resolutionVariable) with
  | error bad => simp
  | ok resolution =>
    dsimp only
    cases number? convexityVariable (environment convexityVariable) with
    | error bad => simp
    | ok meshConvexity =>
      constructor
      · intro h
        refine ⟨⟨resolution, meshConvexity⟩, rfl, rfl, ?_⟩
        cases meshConvexity <;> exact (Prod.mk.inj h).1.symm
      · rintro ⟨⟨_, hint⟩, ⟨⟩, ⟨⟩, rfl⟩
        cases hint <;> rfl

/-- A variable says what it said, or nothing. -/
theorem number?_later {name : Text} {n : Option UInt32}
    (h : number? name (environment name) = .ok n)
    (hlater : later name = environment name ∨ later name = none) :
    ∃ k, number? name (later name) = .ok k ∧ (k = n ∨ k = none) := by
  rcases hlater with hsame | hgone
  · exact ⟨n, hsame ▸ h, .inl rfl⟩
  · exact ⟨none, by rw [hgone]; rfl, .inr rfl⟩

/-- A layer that says no more than the one below it changes nothing. -/
theorem Layer.over_over {above below : Layer}
    (hresolution : above.resolution = below.resolution ∨ above.resolution = none)
    (hhint : above.meshConvexity = below.meshConvexity ∨ above.meshConvexity = none) :
    above.over (below.over s) = below.over s := by
  have hgetD {a b : Option UInt32} (h : b = a ∨ b = none) (n : UInt32) :
      b.getD (a.getD n) = a.getD n := by
    rcases h with rfl | rfl
    · cases b <;> rfl
    · rfl
  have hor {a b : Option UInt32} (h : b = a ∨ b = none) (c : Option UInt32) :
      b.or (a.or c) = a.or c := by
    rcases h with rfl | rfl
    · cases b <;> rfl
    · rfl
  rw [Layer.over, Layer.over, hgetD hresolution, hor hhint]

/-- Variables that have been put over settings change nothing there, and neither do variables that
are gone since. -/
theorem override_again (h : s.override environment = (t, none))
    (hlater : ∀ name ∈ [resolutionVariable, convexityVariable],
      later name = environment name ∨ later name = none) : t.override later = (t, none) := by
  obtain ⟨layer, hresolution, hconvexity, rfl⟩ := override_eq_ok_iff.mp h
  obtain ⟨resolution, hn, hsame⟩ := number?_later hresolution (hlater _ List.mem_cons_self)
  obtain ⟨meshConvexity, hk, hsame'⟩ :=
    number?_later hconvexity (hlater _ (List.mem_cons_of_mem _ List.mem_cons_self))
  exact override_eq_ok_iff.mpr
    ⟨⟨resolution, meshConvexity⟩, hn, hk, (Layer.over_over hsame hsame').symm⟩

end Settings

/-! ## Files that settings are saved in -/

variable {machine : Machine} {s : Settings}

theorem settingsIn_of_read {file : Path}
    (h : machine.disk.read machine.here file = .ok (Utf8.encode s.toToml)) :
    machine.settingsIn file = .ok s := by
  rw [Machine.settingsIn, CommandLine.textIn_of_read h, Utf8.decode?_encode]
  dsimp only [Except.bind]
  rw [Settings.parse_toToml]
  rfl

namespace Files

theorem does_saveSettings_ok {file : Path} {disk : Disk}
    (h : machine.disk.write machine.here file (Utf8.encode s.toToml) = .ok disk) :
    Does (saveSettings s file).run machine (.ok ()) { machine with disk } :=
  does_accessing file (does_writeFile_ok h)

theorem does_saveSettings_error {file : Path} {cause : OsError}
    (h : machine.disk.write machine.here file (Utf8.encode s.toToml) = .error cause) :
    Does (saveSettings s file).run machine (.error (.access file cause)) machine :=
  does_accessing file (does_writeFile_error h)

end Files

namespace CommandLine

variable {file : Option Path}

/-- Settings that are loaded are some settings that the variables have been put over. -/
theorem exists_override_of_loaded (h : loaded machine file = .ok s) :
    ∃ base : Settings, base.override machine.valueOf = (s, none) := by
  rw [loaded] at h
  cases hfile : ofFile machine file with
  | error fault =>
    rw [hfile] at h
    cases h
  | ok base =>
    rw [hfile] at h
    change (machine.overridden base).mapError _ = _ at h
    rw [Machine.overridden] at h
    refine ⟨base, ?_⟩
    generalize base.override machine.valueOf = result at h ⊢
    obtain ⟨t, _ | bad⟩ := result
    · cases h
      rfl
    · cases h

/-- Where the usual file holds settings over which the variables have been put, these are loaded. -/
theorem ofFile_bind_overridden
    (hread : machine.disk.read machine.here Files.usualSettings = .ok (Utf8.encode s.toToml))
    (hoverride : s.override machine.valueOf = (s, none)) :
    (ofFile machine none).bind machine.overridden = .ok s := by
  have hconsulted : consulted machine none = some Files.usualSettings := by
    rw [consulted, Option.none_or, Disk.exists?_of_read hread]
    rfl
  rw [ofFile, hconsulted]
  change (machine.settingsIn Files.usualSettings).bind machine.overridden = _
  rw [settingsIn_of_read hread]
  change machine.overridden s = _
  rw [Machine.overridden, hoverride]

theorem does_carryOut_settings {verbose : Bool} (h : loaded machine file = .ok s) :
    Does (carryOut ⟨.settings, file, verbose⟩).run machine (.ok ())
      { machine with output := machine.output ++ s.toToml } := by
  have hsettings := does_settings machine file
  rw [h] at hsettings
  exact hsettings.bind_ok (.lift (machine.does_print s.toToml))

end CommandLine

/-! ## Settings that are kept -/

open CommandLine in
/-- What becomes of settings that are put into a file, by saving them or by taking what is shown of
the settings in force. -/
structure KeepsSettings (machine : Machine) : Prop where
  /-- A file that can be written holds the settings and nothing else, and they are loaded from it as
  they were. -/
  saved : ∀ (s : Settings) (file : Path) (disk : Disk),
    machine.disk.write machine.here file (Utf8.encode s.toToml) = .ok disk →
    machine.answer (Files.saveSettings s file).run = .ok ()
      ∧ (machine.after (Files.saveSettings s file).run).disk.read machine.here file
        = .ok (Utf8.encode s.toToml)
      ∧ (machine.after (Files.saveSettings s file).run).answer (Files.loadSettings file).run = .ok s
  /-- Where a file cannot be written it is the file that is at fault. -/
  refused : ∀ (s : Settings) (file : Path) (cause : OsError),
    machine.disk.write machine.here file (Utf8.encode s.toToml) = .error cause →
    machine.answer (Files.saveSettings s file).run = .error (.access file cause)
  /-- The settings in force are shown. Once the usual file holds what was shown they are in force
  again, whatever else has become of the disk and of the variables, as long as each of the two that
  count is as it was or gone. -/
  reproduced : ∀ (arguments : List Bytes) (file : Option Path) (verbose : Bool) (s : Settings),
    Arguments.parse? arguments = some ⟨.settings, file, verbose⟩ →
    machine.answer (settings file).run = .ok s →
    machine.answer (run arguments) = 0
      ∧ ∃ shown, (machine.after (run arguments)).output = machine.output ++ shown
        ∧ ∀ (disk : Disk) (environment : List (Text × Bytes)),
          disk.read machine.here Files.usualSettings = .ok (Utf8.encode shown) →
          (∀ name ∈ [Settings.resolutionVariable, Settings.convexityVariable],
            environment.lookup name = machine.environment.lookup name
              ∨ environment.lookup name = none) →
          let later := { machine.after (run arguments) with disk, environment }
          later.answer Files.effectiveSettings.run = .ok s
            ∧ later.answer (settings none).run = .ok s

/-- **Saved settings reproduce themselves.** -/
theorem keepsSettings (machine : Machine) : KeepsSettings machine where
  saved s file disk hwrite := by
    have hsave := Files.does_saveSettings_ok hwrite
    obtain ⟨_, _, _, hafter⟩ := hsave.alike
    have hread : disk.read machine.here file = .ok (Utf8.encode s.toToml) := Disk.read_write hwrite
    rw [hafter, (Files.does_loadSettings _ file).answer_eq]
    exact ⟨hsave.answer_eq, hread, settingsIn_of_read hread⟩
  refused s file cause hwrite := (Files.does_saveSettings_error hwrite).answer_eq
  reproduced arguments file verbose s hparse hloaded := by
    rw [(CommandLine.does_settings machine file).answer_eq] at hloaded
    have hrun := CommandLine.does_run hparse (CommandLine.does_carryOut_settings hloaded)
    obtain ⟨base, hbase⟩ := CommandLine.exists_override_of_loaded hloaded
    obtain ⟨_, _, _, hafter⟩ := hrun.alike
    refine ⟨hrun.answer_eq, s.toToml, by rw [hafter], fun disk environment hread hsame => ?_⟩
    rw [hafter]
    intro later
    have hlater : (CommandLine.ofFile later none).bind later.overridden = .ok s :=
      CommandLine.ofFile_bind_overridden hread (Settings.override_again hbase hsame)
    have hwithin : CommandLine.loaded later none
        = ((CommandLine.ofFile later none).bind later.overridden).mapError _ :=
      (CommandLine.mapError_bind _ _ _).symm
    rw [(CommandLine.does_effectiveSettings later).answer_eq,
      (CommandLine.does_settings later none).answer_eq, hwithin, hlater]
    exact ⟨rfl, rfl⟩

/-- A file that says one thing about the settings and one about something else, and a variable that
says the other. -/
def halfSet : Machine where
  disk := ⟨[([Utf8.encode "scadkit.toml".toList],
    .file (Utf8.encode "import_convexity = 4\n[views]\ntop = 1".toList))]⟩
  environment := [(Settings.resolutionVariable, Utf8.encode "\t+0012 ".toList)]

/-- What is shown of the settings in force puts them in force without the variable. -/
theorem keepsSettings_of_halfSet :
    let arguments := CommandLine.words ["-v", "config"]
    let shown := "resolution = 12\nimport_convexity = 4\n".toList
    let disk : Disk := ⟨[([Utf8.encode "scadkit.toml".toList], .file (Utf8.encode shown))]⟩
    halfSet.answer (CommandLine.settings none).run = .ok ⟨12, some 4⟩
      ∧ (halfSet.after (CommandLine.run arguments)).output = shown
      ∧ { halfSet.after (CommandLine.run arguments) with disk, environment := [] }.answer
          (CommandLine.settings none).run = .ok ⟨12, some 4⟩ := by
  intro arguments shown disk
  have hparse : Arguments.parse? arguments = some ⟨.settings, none, true⟩ := by decide +kernel
  have hloaded : halfSet.answer (CommandLine.settings none).run = .ok ⟨12, some 4⟩ := by
    decide +kernel
  have houtput : (halfSet.after (CommandLine.run arguments)).output = shown := by decide +kernel
  have hread : disk.read halfSet.here Files.usualSettings = .ok (Utf8.encode shown) := by
    decide +kernel
  obtain ⟨-, told, htold, hlater⟩ :=
    (keepsSettings halfSet).reproduced arguments none true ⟨12, some 4⟩ hparse hloaded
  obtain rfl : told = shown := htold.symm.trans houtput
  exact ⟨hloaded, houtput, (hlater disk [] hread fun _ _ => .inr rfl).2⟩

end SolidScript
