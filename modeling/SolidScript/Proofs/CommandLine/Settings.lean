import SolidScript.Proofs.CommandLine.Render
import SolidScript.Proofs.Settings.Layers

/-!
# The settings of a command

A file, two variables and an option say what a rendering is set to. `IsEffective` says which of
them counts for what, and `LoadingFails` which fault is told where one of them is at fault: that of
the file before those of the variables, and an option hides none. A machine with variables that are
texts has exactly one of the two (`says_or_loadingFails`), and a run goes by it.
-/

namespace SolidScript.CommandLine

open Machine Settings

variable {machine : Machine} {file : Option Path}

/-! ## What the sources say -/

/-- What the consulted file says. Where no file is consulted nothing is said. -/
inductive FileSays (machine : Machine) (file : Option Path) : Layer → Prop
  | nothing : consulted machine file = none → FileSays machine file {}
  | entries {path : Path} {t : Text} {layer : Layer} : consulted machine file = some path →
      machine.disk.read machine.here path = .ok (Utf8.encode t) → IsGiven t layer →
      FileSays machine file layer

/-- What the variables say. -/
structure VariablesSay (machine : Machine) (layer : Layer) : Prop where
  resolution : Says (machine.valueOf resolutionVariable) layer.resolution
  meshConvexity : Says (machine.valueOf convexityVariable) layer.meshConvexity

/-- The variables are texts where they are present. -/
def AreTexts (machine : Machine) : Prop :=
  ∀ name ∈ [resolutionVariable, convexityVariable], ∀ bytes,
    machine.valueOf name = some bytes → ∃ t, bytes = Utf8.encode t

/-- The settings of a rendering. An option counts before the variables, and these before the
consulted file. -/
def IsEffective (machine : Machine) (file : Option Path) (option : Option UInt32) (s : Settings) :
    Prop :=
  ∃ given named, FileSays machine file given ∧ VariablesSay machine named
    ∧ s.resolution = ((option.or named.resolution).or given.resolution).getD 50
    ∧ s.meshConvexity = named.meshConvexity.or given.meshConvexity

/-- The consulted file cannot be read, or it is not a text, or the text holds no settings. -/
inductive FileFails (machine : Machine) (file : Option Path) : Fault → Prop
  | unread {path : Path} {cause : OsError} : consulted machine file = some path →
      machine.disk.read machine.here path = .error cause →
      FileFails machine file (.access path cause)
  | notText {path : Path} {content : Bytes} : consulted machine file = some path →
      machine.disk.read machine.here path = .ok content → (∀ t, content ≠ Utf8.encode t) →
      FileFails machine file (.access path .notText)
  | noSettings {path : Path} {t : Text} {cause : ReadError} : consulted machine file = some path →
      machine.disk.read machine.here path = .ok (Utf8.encode t) → (∀ layer, ¬IsGiven t layer) →
      Settings.parse t = .error cause → FileFails machine file (.settingsFile path cause)

/-- The first of the sources that is at fault, and its fault. The file comes first, and then the
variables in their order. -/
inductive LoadingFails (machine : Machine) (file : Option Path) : Failure → Prop
  | file {fault : Fault} : FileFails machine file fault →
      LoadingFails machine file ⟨some (fileContext file), fault⟩
  | resolution {given : Layer} {t : Text} : FileSays machine file given →
      Misspells (machine.valueOf resolutionVariable) t →
      LoadingFails machine file ⟨variableContext file, .badVariable ⟨resolutionVariable, t⟩⟩
  | meshConvexity {given : Layer} {n : Option UInt32} {t : Text} : FileSays machine file given →
      Says (machine.valueOf resolutionVariable) n →
      Misspells (machine.valueOf convexityVariable) t →
      LoadingFails machine file ⟨variableContext file, .badVariable ⟨convexityVariable, t⟩⟩

/-! ## What is loaded -/

theorem textIn_of_read {path : Path} {content : Bytes}
    (h : machine.disk.read machine.here path = .ok content) :
    machine.textIn path = match Utf8.decode? content with
      | none => .error (.access path .notText)
      | some t => .ok t := by
  rw [Machine.textIn, h]
  rfl

theorem ofFile_of_consulted {path : Path} (h : consulted machine file = some path) :
    ofFile machine file = (machine.textIn path).bind fun t =>
      (Settings.parse t).mapError (.settingsFile path) := by
  rw [ofFile, h]
  rfl

theorem ofFile_of_fileSays {given : Layer} (h : FileSays machine file given) :
    ofFile machine file = .ok (given.over {}) := by
  cases h with
  | nothing hfile =>
    rw [ofFile, hfile]
    rfl
  | entries hfile hread hgiven =>
    rw [ofFile_of_consulted hfile, textIn_of_read hread, Utf8.decode?_encode, Except.bind,
      parse_eq_ok_iff_isGiven.mpr ⟨given, hgiven, rfl⟩]
    rfl

theorem loaded_of_fileSays {given : Layer} (h : FileSays machine file given) :
    loaded machine file
      = (machine.overridden (given.over {})).mapError (⟨variableContext file, ·⟩) := by
  rw [loaded, ofFile_of_fileSays h]
  rfl

theorem loaded_of_layers {given named : Layer} (hfile : FileSays machine file given)
    (hvariables : VariablesSay machine named) :
    loaded machine file = .ok (named.over (given.over {})) := by
  rw [loaded_of_fileSays hfile, Machine.overridden,
    override_of_layers hvariables.resolution hvariables.meshConvexity]
  rfl

theorem loaded_of_bad {given : Layer} {bad : BadVariable} (hfile : FileSays machine file given)
    (hbad : ((given.over {}).override machine.valueOf).2 = some bad) :
    loaded machine file = .error ⟨variableContext file, .badVariable bad⟩ := by
  rw [loaded_of_fileSays hfile, Machine.overridden]
  generalize (given.over {}).override machine.valueOf = result at hbad
  obtain ⟨s, fault⟩ := result
  cases hbad
  rfl

theorem ofFile_of_fileFails {fault : Fault} (h : FileFails machine file fault) :
    ofFile machine file = .error fault := by
  cases h with
  | unread hfile hread =>
    rw [ofFile_of_consulted hfile, Machine.textIn, hread]
    rfl
  | @notText path content hfile hread hnot =>
    have hnone : Utf8.decode? content = none :=
      Option.eq_none_iff_forall_ne_some.mpr fun t ht => hnot t (Utf8.encode_of_decode? ht).symm
    rw [ofFile_of_consulted hfile, textIn_of_read hread, hnone]
    rfl
  | noSettings hfile hread _ hparse =>
    rw [ofFile_of_consulted hfile, textIn_of_read hread, Utf8.decode?_encode, Except.bind, hparse]
    rfl

theorem loaded_of_loadingFails {failure : Failure} (h : LoadingFails machine file failure) :
    loaded machine file = .error failure := by
  cases h with
  | file hfails =>
    rw [loaded, ofFile_of_fileFails hfails]
    rfl
  | resolution hfile hbad =>
    exact loaded_of_bad hfile (congrArg Prod.snd (override_of_misspells_resolution hbad _))
  | meshConvexity hfile hsays hbad =>
    exact loaded_of_bad hfile (congrArg Prod.snd (override_of_misspells_convexity hsays hbad _))

/-! ## Nothing else happens -/

theorem fileSays_or_fileFails (machine : Machine) (file : Option Path) :
    (∃ given, FileSays machine file given) ∨ ∃ fault, FileFails machine file fault := by
  cases hfile : consulted machine file with
  | none => exact .inl ⟨{}, .nothing hfile⟩
  | some path =>
    cases hread : machine.disk.read machine.here path with
    | error cause => exact .inr ⟨_, .unread hfile hread⟩
    | ok content =>
      by_cases htext : ∃ t, content = Utf8.encode t
      · obtain ⟨t, rfl⟩ := htext
        cases hparse : Settings.parse t with
        | ok s =>
          obtain ⟨given, hgiven, -⟩ := parse_eq_ok_iff_isGiven.mp hparse
          exact .inl ⟨given, .entries hfile hread hgiven⟩
        | error cause =>
          refine .inr ⟨_, .noSettings hfile hread (fun given hgiven => ?_) hparse⟩
          rw [parse_eq_ok_iff_isGiven.mpr ⟨given, hgiven, rfl⟩] at hparse
          cases hparse
      · exact .inr ⟨_, .notText hfile hread (not_exists.mp htext)⟩

/-- A file that says something is not at fault. -/
theorem FileSays.not_fileFails {given : Layer} (h : FileSays machine file given) (fault : Fault) :
    ¬FileFails machine file fault := by
  intro hfails
  have heq := (ofFile_of_fileSays h).symm.trans (ofFile_of_fileFails hfails)
  cases heq

/-- Either every source says something that counts, or the first that does not is told. -/
theorem says_or_loadingFails (htexts : AreTexts machine) (file : Option Path) :
    (∃ given named, FileSays machine file given ∧ VariablesSay machine named)
      ∨ ∃ failure, LoadingFails machine file failure := by
  rcases fileSays_or_fileFails machine file with ⟨given, hgiven⟩ | ⟨fault, hfails⟩
  · rcases says_or_misspells (htexts resolutionVariable (by simp)) with ⟨n, hn⟩ | ⟨t, ht⟩
    · rcases says_or_misspells (htexts convexityVariable (by simp)) with ⟨k, hk⟩ | ⟨t, ht⟩
      · exact .inl ⟨given, ⟨n, k⟩, hgiven, hn, hk⟩
      · exact .inr ⟨_, .meshConvexity hgiven hn ht⟩
    · exact .inr ⟨_, .resolution hgiven ht⟩
  · exact .inr ⟨_, .file hfails⟩

theorem loaded_eq_error_iff (htexts : AreTexts machine) {failure : Failure} :
    loaded machine file = .error failure ↔ LoadingFails machine file failure := by
  refine ⟨fun h => ?_, loaded_of_loadingFails⟩
  rcases says_or_loadingFails htexts file with ⟨given, named, hfile, hvariables⟩ | ⟨other, hother⟩
  · rw [loaded_of_layers hfile hvariables] at h
    cases h
  · rw [loaded_of_loadingFails hother] at h
    cases h
    exact hother

/-- The settings of a rendering, from those that are loaded and the option. -/
theorem isEffective_iff (htexts : AreTexts machine) {option : Option UInt32} {s : Settings} :
    IsEffective machine file option s ↔ ∃ start, loaded machine file = .ok start
      ∧ s = withOption option start := by
  have hlayers (given named : Layer) :
      withOption option (named.over (given.over {}))
      = (⟨((option.or named.resolution).or given.resolution).getD 50,
          named.meshConvexity.or given.meshConvexity⟩ : Settings) := by
    simp [withOption, Layer.over, Option.getD_or]
  constructor
  · rintro ⟨given, named, hfile, hvariables, hresolution, hconvexity⟩
    refine ⟨_, loaded_of_layers hfile hvariables, ?_⟩
    rw [hlayers, ← hresolution, ← hconvexity]
  · rintro ⟨start, hstart, rfl⟩
    rcases says_or_loadingFails htexts file with ⟨given, named, hfile, hvariables⟩ | ⟨other, hother⟩
    · rw [loaded_of_layers hfile hvariables] at hstart
      cases hstart
      refine ⟨given, named, hfile, hvariables, ?_⟩
      rw [hlayers]
      exact ⟨rfl, rfl⟩
    · rw [loaded_of_loadingFails hother] at hstart
      cases hstart

/-- Loading fails where the consulted file says nothing that counts or a variable is misspelled. -/
theorem exists_loadingFails_iff (htexts : AreTexts machine) :
    (∃ failure, LoadingFails machine file failure) ↔
      (∀ given, ¬FileSays machine file given)
        ∨ ∃ name ∈ [resolutionVariable, convexityVariable], ∃ t,
          Misspells (machine.valueOf name) t := by
  constructor
  · rintro ⟨_, hfails | ⟨-, ht⟩ | ⟨-, -, ht⟩⟩
    · exact .inl fun given hgiven => hgiven.not_fileFails _ hfails
    · exact .inr ⟨_, List.mem_cons_self, _, ht⟩
    · exact .inr ⟨_, List.mem_cons_of_mem _ List.mem_cons_self, _, ht⟩
  · intro h
    rcases says_or_loadingFails htexts file with ⟨given, named, hfile, hvariables⟩ | hfails
    · rcases h with hnot | ⟨name, hname, t, ht⟩
      · exact absurd hfile (hnot given)
      · rcases List.mem_pair.mp hname with rfl | rfl
        · exact absurd ht hvariables.resolution.not_misspells
        · exact absurd ht hvariables.meshConvexity.not_misspells
    · exact hfails

/-! ## Rendering under the settings -/

/-- Where a file is named, nothing else on the disk counts. -/
theorem loaded_congr {path : Path} {disk : Disk}
    (h : disk.read machine.here path = machine.disk.read machine.here path) :
    loaded { machine with disk } (some path) = loaded machine (some path) := by
  have htext : { machine with disk }.textIn path = machine.textIn path := by
    rw [Machine.textIn, Machine.textIn, ← h]
    rfl
  show ((Machine.settingsIn _ path).mapError _).bind _ = _
  rw [Machine.settingsIn, htext]
  rfl

variable {input : Path} {output : Option Path} {option : Option UInt32}
  {clipboard editor verbose : Bool} {arguments : List Bytes}

/-- A rendering goes by its effective settings. It fails to load them where the consulted file says
nothing that counts or a variable is misspelled: then the first fault is told, and nothing else
happens. Where a file is named it is the only one that is looked at. -/
theorem run_render_layers
    (hparse : Arguments.parse? arguments
      = some ⟨.render input output option clipboard editor, file, verbose⟩)
    (htexts : AreTexts machine) :
    (∀ s, IsEffective machine file option s ↔ ∃ start,
        machine.answer (settings file).run = .ok start ∧ s = withOption option start)
      ∧ (∀ s, IsEffective machine file option s →
        machine.answer (run arguments)
            = status (machine.answer (render input output clipboard editor verbose s).run)
          ∧ Alike (machine.after (run arguments))
            (machine.after (render input output clipboard editor verbose s).run))
      ∧ (∀ failure, machine.answer (settings file).run = .error failure
        ↔ LoadingFails machine file failure)
      ∧ ((∃ failure, LoadingFails machine file failure) ↔
        (∀ given, ¬FileSays machine file given)
          ∨ ∃ name ∈ [resolutionVariable, convexityVariable], ∃ t,
            Misspells (machine.valueOf name) t)
      ∧ (∀ failure, LoadingFails machine file failure →
        machine.answer (run arguments) = 1 ∧ Alike (machine.after (run arguments)) machine
          ∧ ∃ told, (machine.after (run arguments)).errors
            = told ++ Report.error (Paint.isForced machine.valueOf) failure.message)
      ∧ ∀ path, file = some path → ∀ disk : Disk,
        disk.read machine.here path = machine.disk.read machine.here path →
        { machine with disk }.answer (settings file).run
          = machine.answer (settings file).run := by
  have hsettings := does_settings machine file
  rw [hsettings.answer_eq]
  refine ⟨fun s => isEffective_iff htexts, fun s hs => ?_,
    fun failure => loaded_eq_error_iff htexts, exists_loadingFails_iff htexts,
    fun failure hfails => ?_, ?_⟩
  · obtain ⟨start, hstart, rfl⟩ := (isEffective_iff htexts).mp hs
    rw [hstart] at hsettings
    obtain ⟨r, n, -, hrender⟩ :=
      does_render machine input output clipboard editor verbose (withOption option start)
    have hrun := does_run hparse (hsettings.bind_ok hrender)
    rw [hrun.answer_eq, hrender.answer_eq]
    exact ⟨rfl, hrun.alike.trans hrender.alike.symm⟩
  · rw [loaded_of_loadingFails hfails] at hsettings
    have hcarryOut : Does (carryOut ⟨.render input output option clipboard editor, file,
      verbose⟩).run machine (.error failure) machine := hsettings.bind_error
    have hrun := does_run hparse hcarryOut
    exact ⟨hrun.answer_eq, hrun.alike, run_of_error hparse hcarryOut⟩
  · rintro path rfl disk hdisk
    rw [(does_settings _ _).answer_eq, loaded_congr hdisk]

/-- Two files with settings, the usual one broken, and a variable with blanks and zeros. -/
def manySources : Machine where
  disk := ⟨[([Utf8.encode "scadkit.toml".toList], .file (Utf8.encode "resolution = \n".toList)),
    ([Utf8.encode "fine.toml".toList],
      .file (Utf8.encode "import_convexity = 3\nresolution = 7\n".toList))]⟩
  environment := [(resolutionVariable, Utf8.encode " +0012\n".toList)]

theorem run_render_layers_of_many_sources :
    let arguments := words ["render", "in.json", "-r", "9", "--config=fine.toml"]
    let file := Path.ofString "fine.toml"
    Arguments.parse? arguments
        = some ⟨.render (.ofString "in.json") none (some 9) false false, file, false⟩
      ∧ AreTexts manySources
      ∧ IsEffective manySources file (some 9) ⟨9, some 3⟩
      ∧ IsEffective manySources file none ⟨12, some 3⟩
      ∧ ¬∃ failure, LoadingFails manySources file failure := by
  intro arguments file
  have hparse : Arguments.parse? arguments
      = some ⟨.render (.ofString "in.json") none (some 9) false false, file, false⟩ := by
    decide +kernel
  have hnone : Arguments.parse? (words ["-c", "fine.toml", "render", "in.json"])
      = some ⟨.render (.ofString "in.json") none none false false, file, false⟩ := by
    decide +kernel
  have htexts : AreTexts manySources := by
    intro name hname bytes hbytes
    rcases List.mem_pair.mp hname with rfl | rfl
    · exact ⟨_, (Option.some.inj hbytes).symm⟩
    · cases hbytes
  have hstart : manySources.answer (settings file).run = .ok ⟨12, some 3⟩ := by decide +kernel
  obtain ⟨heffective, -, hfailure, -⟩ := run_render_layers hparse htexts
  obtain ⟨heffective', -⟩ := run_render_layers hnone htexts
  refine ⟨hparse, htexts, (heffective _).mpr ⟨_, hstart, rfl⟩,
    (heffective' _).mpr ⟨_, hstart, rfl⟩, ?_⟩
  rintro ⟨failure, hfails⟩
  cases hstart.symm.trans ((hfailure failure).mpr hfails)

end SolidScript.CommandLine
