import SolidScript.Proofs.CommandLine.Run
import SolidScript.Proofs.Sinks

/-!
# Rendering on a machine

What a rendering does: nothing where the settings or the model are not loaded or the script cannot
be written, and else the script is delivered (`Renders`, `Runs`). What is delivered, the `outcome`,
does not depend on what else is asked for, and what comes after it leaves it alone
(`run_render_cases`).

The main statement is `run_render_outcome`.
-/

namespace SolidScript.CommandLine

open Machine

variable (m : Machine)

/-! ## Steps without which a command is still a success -/

theorem does_attempt {α : Type} {m n : Machine} {step : ExceptT Fault (StateM Machine) α}
    {r : Except Fault α} (name : Text) (h : Does step.run m r n) :
    Does (attempt name step) m r.toOption n := by
  refine h.bind ?_
  cases r with
  | ok a => exact .pure n (some a)
  | error fault =>
    exact (n.does_log _).bind ((does_colors n).bind ((n.does_report _).bind (.pure n none)))

/-- The programs that are started to copy a script, if it is to be copied. -/
def copying (script : Text) (clipboard : Bool) : List Started :=
  if clipboard then (Clipboard.copying m script Clipboard.copiers).2 else []

/-- The machine after a script has been copied, if it is to be copied. -/
def copied (script : Text) (clipboard : Bool) : Machine :=
  { m with started := m.started ++ copying m script clipboard }

@[simp] theorem copied_false (script : Text) : copied m script false = m := by
  simp [copied, copying]

theorem does_copyScript (script : Text) (verbose : Bool) :
    Does (copyScript script verbose) m () (copied m script true) := by
  refine (does_attempt _ (Clipboard.does_copy m script)).bind ?_
  split
  next => exact (does_colors _).bind (does_report _ _)
  next => exact .pure _ ()

theorem does_openScript {m n : Machine} {script : Text} {r : Except Fault Path} (verbose : Bool)
    (h : Does (Editor.openScript script).run m r n) :
    Does (openScript script verbose) m () n := by
  refine (does_attempt _ h).bind ?_
  cases r with
  | error fault => exact .pure n ()
  | ok file =>
    dsimp only [Except.toOption]
    split
    next => exact (does_colors _).bind (does_report _ _)
    next => exact .pure n ()

/-! ## Delivery -/

/-- The machine after a script has been put where it belongs, if that is possible. -/
def delivered (script : Text) : Option Path → Except Failure Machine
  | none => .ok { m with output := m.output ++ script.line }
  | some file =>
    match m.disk.write m.here file (Utf8.encode script.line) with
    | .error cause => .error ⟨none, .access file cause⟩
    | .ok disk => .ok { m with disk }

variable {m} {n : Machine} {script : Text} {output : Option Path}

theorem delivered_some_eq_ok_iff {path : Path} :
    delivered m script (some path) = .ok n ↔
      ∃ disk, m.disk.write m.here path (Utf8.encode script.line) = .ok disk
        ∧ n = { m with disk } := by
  rw [delivered]
  constructor
  · intro h
    split at h
    next => cases h
    next disk hwrite => exact ⟨disk, hwrite, (Except.ok.inj h).symm⟩
  · rintro ⟨disk, hwrite, rfl⟩
    rw [hwrite]

theorem read_of_delivered {path : Path}
    (h : delivered m script (some path) = .ok n) :
    n.disk.read n.here path = .ok (Utf8.encode script.line) := by
  obtain ⟨disk, hwrite, rfl⟩ := delivered_some_eq_ok_iff.mp h
  exact Disk.read_write hwrite

theorem exists_delivered_iff : (∃ d, delivered m script output = .ok d) ↔
    ∀ path, output = some path → m.answer (Files.writeScript script path).run = .ok () := by
  cases output with
  | none => simp [delivered]
  | some path =>
    rw [delivered]
    cases hdisk : m.disk.write m.here path (Utf8.encode script.line) with
    | error cause => simp [(Files.does_writeScript_error hdisk).answer_eq]
    | ok disk => simp [(Files.does_writeScript_ok hdisk).answer_eq]

/-- The script has got where it belongs: onto the stream, behind what was there, or into the file,
which holds nothing else then, and nothing is on the stream. -/
def HasDelivered (before after : Machine) (script : Text) : Option Path → Prop
  | none => after.output = before.output ++ script.line
  | some path => after.disk.read after.here path = .ok (Utf8.encode script.line)
      ∧ after.output = before.output

theorem exists_delivered_iff_write : (∃ d, delivered m script output = .ok d) ↔
    ∀ path, output = some path →
      ∃ disk, m.disk.write m.here path (Utf8.encode script.line) = .ok disk := by
  cases output with
  | none => simp [delivered]
  | some path =>
    simp only [delivered_some_eq_ok_iff]
    constructor
    · rintro ⟨_, disk, hwrite, -⟩ _ ⟨⟩
      exact ⟨disk, hwrite⟩
    · intro h
      obtain ⟨disk, hwrite⟩ := h path rfl
      exact ⟨_, disk, hwrite, rfl⟩

theorem does_deliver_ok (verbose : Bool) (h : delivered m script output = .ok n) :
    Does (deliver script output verbose).run m (.ok ()) n := by
  cases output with
  | none =>
    cases h
    exact .lift (m.does_print script.line)
  | some file =>
    obtain ⟨disk, hwrite, rfl⟩ := delivered_some_eq_ok_iff.mp h
    refine (does_within none (Files.does_writeScript_ok hwrite)).bind_ok ?_
    split
    next => exact (Does.lift (does_colors _)).bind_ok (.lift (does_report _ _))
    next => exact .pure_ok _ ()

theorem does_deliver_error {failure : Failure} (verbose : Bool)
    (h : delivered m script output = .error failure) :
    Does (deliver script output verbose).run m (.error failure) m := by
  cases output with
  | none => cases h
  | some file =>
    rw [delivered] at h
    cases hwrite : m.disk.write m.here file (Utf8.encode script.line) with
    | error cause =>
      rw [hwrite] at h
      cases h
      exact (does_within none (Files.does_writeScript_error hwrite)).bind_error
    | ok disk =>
      rw [hwrite] at h
      cases h

/-! ## After delivery -/

/-- What comes of the editor, if it is asked for. -/
inductive Shows (m : Machine) (script : Text) : Bool → Machine → Prop
  | skipped : Shows m script false m
  | tried {r : Except Fault Path} {n : Machine} : Editor.Opens m script r n →
      Does (Editor.openScript script).run m r n → Shows m script true n

/-- What comes after delivery leaves alone what has been delivered. -/
theorem preserves_of_shows {clipboard editor : Bool} {m n : Machine} {script : Text}
    (h : Shows (copied m script clipboard) script editor n) : Preserves m n := by
  cases h with
  | skipped => exact ⟨rfl, rfl, .refl _⟩
  | tried hopens _ =>
    obtain ⟨houtput, hcurrentDir, hdisk⟩ := hopens.preserves
    exact ⟨houtput, hcurrentDir, hdisk⟩

/-- What has been delivered is there afterwards, as long as it is left alone. -/
theorem hasDelivered_of_preserves {o : Machine} (h : delivered m script output = .ok n)
    (hpreserves : Preserves n o) : HasDelivered m o script output := by
  cases output with
  | none =>
    cases h
    exact hpreserves.output
  | some path =>
    refine ⟨hpreserves.read_eq (read_of_delivered h), ?_⟩
    obtain ⟨disk, -, rfl⟩ := delivered_some_eq_ok_iff.mp h
    exact hpreserves.output

theorem does_show (m : Machine) (script : Text) (editor verbose : Bool) :
    ∃ n, Shows m script editor n ∧ Does (ExceptT.run (ε := Failure)
      (if editor then liftM (openScript (m := StateM Machine) script verbose) else pure ()))
      m (.ok ()) n := by
  cases editor with
  | false => exact ⟨m, .skipped, .pure_ok m ()⟩
  | true =>
    obtain ⟨r, n, hopens, hdoes⟩ := Editor.does_openScript m script
    exact ⟨n, .tried hopens hdoes, .lift (does_openScript verbose hdoes)⟩

/-! ## Rendering -/

/-- What was being done when a model was at fault. -/
def modelContext (input : Path) : Text := "Failed to load tree: ".toList ++ input.display

/-- How a rendering can end. -/
inductive Renders (m : Machine) (input : Path) (output : Option Path) (clipboard editor : Bool)
    (s : Settings) : Except Failure Unit → Machine → Prop
  | noModel {fault : Fault} : m.modelIn input = .error fault →
      Renders m input output clipboard editor s (.error ⟨some (modelContext input), fault⟩) m
  | notDelivered {model : Node} {failure : Failure} : m.modelIn input = .ok model →
      delivered m (model.render s) output = .error failure →
      Renders m input output clipboard editor s (.error failure) m
  | done {model : Node} {n o : Machine} : m.modelIn input = .ok model →
      delivered m (model.render s) output = .ok n →
      Shows (copied n (model.render s) clipboard) (model.render s) editor o →
      Renders m input output clipboard editor s (.ok ()) o

theorem does_reportRendering (m : Machine) (input : Path) (summary : Summary) (s : Settings)
    (nanoseconds : Nat) : Does (reportRendering input summary s nanoseconds) m () m :=
  (does_colors m).bind (m.does_report _)

theorem does_render (m : Machine) (input : Path) (output : Option Path)
    (clipboard editor verbose : Bool) (s : Settings) :
    ∃ r n, Renders m input output clipboard editor s r n
      ∧ Does (render input output clipboard editor verbose s).run m r n := by
  have hload := does_within (some (modelContext input)) (Files.does_loadModel m input)
  cases hmodel : m.modelIn input with
  | error fault =>
    rw [hmodel] at hload
    exact ⟨_, m, .noModel hmodel, hload.bind_error⟩
  | ok model =>
    rw [hmodel] at hload
    have hscript := Does.lift (ε := Failure) (Files.does_renderModel m model s)
    have hclock := Does.lift (ε := Failure) m.does_clock
    have hreport := Does.lift (ε := Failure)
      (does_reportRendering m input (model.summary (model.render s)) s (m.time - m.time))
    cases hdelivered : delivered m (model.render s) output with
    | error failure =>
      refine ⟨_, m, .notDelivered hmodel hdelivered,
        hload.bind_ok (hclock.bind_ok (hscript.bind_ok (hclock.bind_ok ?_)))⟩
      exact .bind_when (fun _ => hreport) (fun _ => rfl)
        (does_deliver_error verbose hdelivered).bind_error
    | ok n =>
      obtain ⟨o, hshows, hshow⟩ :=
        does_show (copied n (model.render s) clipboard) (model.render s) editor verbose
      refine ⟨_, o, .done hmodel hdelivered hshows,
        hload.bind_ok (hclock.bind_ok (hscript.bind_ok (hclock.bind_ok ?_)))⟩
      refine .bind_when (fun _ => hreport) (fun _ => rfl)
        ((does_deliver_ok verbose hdelivered).bind_ok ?_)
      refine .bind_when ?_ ?_ hshow
      · rintro rfl
        exact .lift (does_copyScript n _ verbose)
      · rintro rfl
        exact copied_false n _

/-! ## Runs -/

variable {file : Option Path} {input : Path} {option : Option UInt32}
  {clipboard editor verbose : Bool}

/-- The settings of a rendering, from those that a command starts from. -/
def withOption (option : Option UInt32) (start : Settings) : Settings :=
  { start with resolution := option.getD start.resolution }

/-- How carrying out a rendering can end. -/
inductive Runs (m : Machine) (file : Option Path) (input : Path) (output : Option Path)
    (option : Option UInt32) (clipboard editor : Bool) : Except Failure Unit → Machine → Prop
  | notLoaded {failure : Failure} : loaded m file = .error failure →
      Runs m file input output option clipboard editor (.error failure) m
  | rendered {start : Settings} {r : Except Failure Unit} {n : Machine} :
      loaded m file = .ok start →
      Renders m input output clipboard editor (withOption option start) r n →
      Runs m file input output option clipboard editor r n

theorem does_carryOut_render (m : Machine) (file : Option Path) (input : Path)
    (output : Option Path) (option : Option UInt32) (clipboard editor verbose : Bool) :
    ∃ r n, Runs m file input output option clipboard editor r n ∧
      Does (carryOut ⟨.render input output option clipboard editor, file, verbose⟩).run m r n := by
  have hsettings := does_settings m file
  cases hloaded : loaded m file with
  | error failure =>
    rw [hloaded] at hsettings
    exact ⟨_, m, .notLoaded hloaded, hsettings.bind_error⟩
  | ok start =>
    rw [hloaded] at hsettings
    obtain ⟨r, n, hrenders, hdoes⟩ :=
      does_render m input output clipboard editor verbose (withOption option start)
    exact ⟨r, n, .rendered hloaded hrenders, hsettings.bind_ok hdoes⟩

/-- What is delivered, whatever comes after that: the machine with the script on it, or why there
is none. -/
def outcome (m : Machine) (file : Option Path) (input : Path) (output : Option Path)
    (option : Option UInt32) : Except Failure Machine :=
  (loaded m file).bind fun start =>
    ((m.modelIn input).mapError (⟨some (modelContext input), ·⟩)).bind fun model =>
      delivered m (model.render (withOption option start)) output

/-- Carrying out a rendering delivers its outcome and leaves it alone. -/
theorem Runs.outcome_cases {r : Except Failure Unit}
    (h : Runs m file input output option clipboard editor r n) :
    (∃ failure, outcome m file input output option = .error failure ∧ r = .error failure ∧ n = m)
      ∨ ∃ d, outcome m file input output option = .ok d ∧ r = .ok () ∧ Preserves d n := by
  rw [outcome]
  cases h with
  | notLoaded hloaded =>
    rw [hloaded]
    exact .inl ⟨_, rfl, rfl, rfl⟩
  | rendered hloaded hrenders =>
    rw [hloaded, Except.bind]
    cases hrenders with
    | noModel hmodel =>
      rw [hmodel]
      exact .inl ⟨_, rfl, rfl, rfl⟩
    | notDelivered hmodel hdelivered =>
      rw [hmodel]
      exact .inl ⟨_, hdelivered, rfl, rfl⟩
    | done hmodel hdelivered hshows =>
      rw [hmodel]
      exact .inr ⟨_, hdelivered, rfl, preserves_of_shows hshows⟩

theorem outcome_eq_ok_iff {d : Machine} :
    outcome m file input output option = .ok d ↔ ∃ start model, loaded m file = .ok start
      ∧ m.modelIn input = .ok model
      ∧ delivered m (model.render (withOption option start)) output = .ok d := by
  rw [outcome]
  cases loaded m file with
  | error failure => simp [Except.bind]
  | ok start =>
    rw [Except.bind]
    cases m.modelIn input with
    | error fault => simp [Except.bind, Except.mapError]
    | ok model => simp [Except.bind, Except.mapError]

/-- Loading and the disk say whether anything is delivered. -/
theorem exists_outcome_iff :
    (∃ d, outcome m file input output option = .ok d) ↔
      ∃ start model, m.answer (settings file).run = .ok start
        ∧ m.answer (Files.loadModel input).run = .ok model
        ∧ ∀ path, output = some path → ∃ disk, m.disk.write m.here path
            (Utf8.encode (model.render (withOption option start)).line) = .ok disk := by
  simp only [outcome_eq_ok_iff, (does_settings m file).answer_eq,
    (Files.does_loadModel m input).answer_eq, ← exists_delivered_iff_write]
  constructor
  · rintro ⟨d, start, model, hstart, hmodel, hdelivered⟩
    exact ⟨start, model, hstart, hmodel, d, hdelivered⟩
  · rintro ⟨start, model, hstart, hmodel, d, hdelivered⟩
    exact ⟨d, start, model, hstart, hmodel, hdelivered⟩

variable {arguments : List Bytes}

/-- A run of a rendering: either it only tells why there is nothing to deliver, or it delivers its
outcome and leaves it alone. -/
theorem run_render_cases (m : Machine)
    (hparse : Arguments.parse? arguments
      = some ⟨.render input output option clipboard editor, file, verbose⟩) :
    (∃ failure, outcome m file input output option = .error failure
        ∧ m.answer (run arguments) = 1 ∧ Alike (m.after (run arguments)) m)
      ∨ ∃ d, outcome m file input output option = .ok d
        ∧ m.answer (run arguments) = 0 ∧ Preserves d (m.after (run arguments)) := by
  obtain ⟨r, n, hruns, hdoes⟩ :=
    does_carryOut_render m file input output option clipboard editor verbose
  have hrun := does_run hparse hdoes
  rcases hruns.outcome_cases with ⟨failure, houtcome, rfl, rfl⟩ | ⟨d, houtcome, rfl, hpreserves⟩
  · exact .inl ⟨failure, houtcome, hrun.answer_eq, hrun.alike⟩
  · exact .inr ⟨d, houtcome, hrun.answer_eq, hpreserves.of_alike hrun.alike⟩

/-! ## What extra wishes change -/

variable {arguments' : List Bytes} {clipboard' editor' verbose' : Bool}

/-- What comes of a rendering, and what does not depend on what else is asked for. -/
structure RendersAlike (m : Machine) (arguments arguments' : List Bytes) (file : Option Path)
    (input : Path) (output : Option Path) (option : Option UInt32) : Prop where
  /-- Both runs have the same status, the same text on the stream, and the same in the file. -/
  status : m.answer (run arguments) = m.answer (run arguments')
  stream : (m.after (run arguments)).output = (m.after (run arguments')).output
  content : ∀ path, output = some path →
    (m.after (run arguments)).disk.read (m.after (run arguments)).here path
      = (m.after (run arguments')).disk.read (m.after (run arguments')).here path
  /-- The status is zero if and only if all is loaded and the disk lets the text be written. -/
  succeeds_iff : m.answer (run arguments) = 0 ↔
    ∃ start model, m.answer (settings file).run = .ok start
      ∧ m.answer (Files.loadModel input).run = .ok model
      ∧ ∀ path, output = some path → ∃ disk, m.disk.write m.here path
          (Utf8.encode (model.render (withOption option start)).line) = .ok disk
  /-- Then the script of what was loaded is where it belongs. -/
  succeeds : m.answer (run arguments) = 0 → ∀ start model,
    m.answer (settings file).run = .ok start → m.answer (Files.loadModel input).run = .ok model →
    HasDelivered m (m.after (run arguments)) (model.render (withOption option start)) output
  /-- Otherwise nothing is on the stream, no file is touched, and no program is started. -/
  fails : m.answer (run arguments) ≠ 0 → (m.after (run arguments)).output = m.output
    ∧ (m.after (run arguments)).disk = m.disk ∧ (m.after (run arguments)).started = m.started

/-- **What is delivered does not depend on what else is asked for.** Whether a script goes to the
clipboard and the editor too, and what is told, changes neither the status of a rendering nor what
is on the output stream and in the file; and a rendering that fails leaves nothing behind. -/
theorem run_render_outcome
    (hparse : Arguments.parse? arguments
      = some ⟨.render input output option clipboard editor, file, verbose⟩)
    (hparse' : Arguments.parse? arguments'
      = some ⟨.render input output option clipboard' editor', file, verbose'⟩) :
    RendersAlike m arguments arguments' file input output option := by
  -- both runs have the same outcome, so either both fail or both deliver it
  rcases run_render_cases m hparse with
    ⟨failure, houtcome, hanswer, halike⟩ | ⟨d, houtcome, hanswer, hpreserves⟩
  · rcases run_render_cases m hparse' with
      ⟨_, -, hanswer', halike'⟩ | ⟨d, houtcome', -⟩
    · obtain ⟨_, _, _, hafter⟩ := halike
      obtain ⟨_, _, _, hafter'⟩ := halike'
      have hnone : ¬∃ d, outcome m file input output option = .ok d := by
        rintro ⟨d, hd⟩
        cases houtcome.symm.trans hd
      have hone : m.answer (run arguments) ≠ 0 := by
        rw [hanswer]
        decide
      refine ⟨hanswer.trans hanswer'.symm, ?_, fun _ _ => ?_,
        iff_of_false hone (mt exists_outcome_iff.mpr hnone), fun hzero => absurd hzero hone,
        fun _ => ?_⟩
      · rw [hafter, hafter']
      · rw [hafter, hafter']
        rfl
      · rw [hafter]
        exact ⟨rfl, rfl, rfl⟩
    · cases houtcome.symm.trans houtcome'
  · rcases run_render_cases m hparse' with
      ⟨failure, houtcome', -⟩ | ⟨d', houtcome', hanswer', hpreserves'⟩
    · cases houtcome.symm.trans houtcome'
    · cases houtcome.symm.trans houtcome'
      obtain ⟨start, model, hstart, hmodel, hdelivered⟩ := outcome_eq_ok_iff.mp houtcome
      refine ⟨hanswer.trans hanswer'.symm, hpreserves.output.trans hpreserves'.output.symm, ?_,
        iff_of_true hanswer (exists_outcome_iff.mp ⟨d, houtcome⟩), fun _ start' model' hs hm => ?_,
        fun hne => absurd hanswer hne⟩
      · rintro path rfl
        have hread := read_of_delivered hdelivered
        rw [hpreserves.read_eq hread, hpreserves'.read_eq hread]
      · rw [(does_settings m file).answer_eq] at hs
        rw [(Files.does_loadModel m input).answer_eq] at hm
        cases hs.symm.trans hstart
        cases hm.symm.trans hmodel
        exact hasDelivered_of_preserves hdelivered hpreserves

/-- Words as they are typed. -/
def words (ts : List String) : List Bytes := ts.map fun t => Utf8.encode t.toList

/-- A model, an older script, a copier that fails, and an editor that cannot be started. -/
def brokenSinks : Machine where
  disk := ⟨[([Utf8.encode "in.json".toList],
      .file (Utf8.encode "\x7b\"literal\":\"ball();\"\x7d".toList)),
    ([Utf8.encode "out.scad".toList], .file (Utf8.encode "box();\nbox();\n".toList))]⟩
  programs := [("pbcopy".toList, .ends (.code 1)),
    ("openscad".toList, .refuses .permissionDenied)]

theorem run_render_outcome_of_broken_sinks :
    let plain := words ["render", "in.json"]
    let full := words ["-v", "render", "--open", "in.json", "--clipboard"]
    let plainFile := words ["render", "in.json", "-o", "out.scad"]
    let fullFile := words ["-v", "render", "--open", "in.json", "-oout.scad", "--clipboard"]
    let input := Path.ofString "in.json"
    let output := Path.ofString "out.scad"
    Arguments.parse? plain = some ⟨.render input none none false false, none, false⟩
      ∧ Arguments.parse? full = some ⟨.render input none none true true, none, true⟩
      ∧ Arguments.parse? plainFile
        = some ⟨.render input (some output) none false false, none, false⟩
      ∧ Arguments.parse? fullFile = some ⟨.render input (some output) none true true, none, true⟩
      ∧ brokenSinks.answer (run full) = 0
      ∧ (brokenSinks.after (run full)).output = "ball();\n".toList
      ∧ brokenSinks.answer (run fullFile) = 0
      ∧ (brokenSinks.after (run fullFile)).disk.read (brokenSinks.after (run fullFile)).here output
        = .ok (Utf8.encode "ball();\n".toList)
      ∧ (brokenSinks.after (run fullFile)).output = [] := by
  intro plain full plainFile fullFile input output
  have hplain : Arguments.parse? plain
      = some ⟨.render input none none false false, none, false⟩ := by decide +kernel
  have hfull : Arguments.parse? full
      = some ⟨.render input none none true true, none, true⟩ := by decide +kernel
  have hplainFile : Arguments.parse? plainFile
      = some ⟨.render input (some output) none false false, none, false⟩ := by decide +kernel
  have hfullFile : Arguments.parse? fullFile
      = some ⟨.render input (some output) none true true, none, true⟩ := by decide +kernel
  have hstream := run_render_outcome (m := brokenSinks) hplain hfull
  have hdisk := run_render_outcome (m := brokenSinks) hplainFile hfullFile
  refine ⟨hplain, hfull, hplainFile, hfullFile, hstream.status.symm.trans (by decide +kernel),
    hstream.stream.symm.trans (by decide +kernel), hdisk.status.symm.trans (by decide +kernel),
    (hdisk.content output rfl).symm.trans (by decide +kernel),
    hdisk.stream.symm.trans (by decide +kernel)⟩

end SolidScript.CommandLine
