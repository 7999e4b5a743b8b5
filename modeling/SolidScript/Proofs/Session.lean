import SolidScript.Node.Build
import SolidScript.Session

/-!
# Sessions from step to step

A step works on the model, works on the shared settings, or asks for a script. Neither kind of work
looks at what the other has in hand, so after a run the model is up to the steps on the model and
the settings are up to the steps on the settings, however they took turns; a script is made of the
two at the moment it is asked for.

The main statement is `keepsApart`.
-/

namespace SolidScript

namespace Session

namespace Step

/-- A step that works on the model. -/
def isOnModel : Step → Bool
  | .setModel _ | .grow _ => true
  | .setSettings _ | .changeSettings _ | .display | .renderWith _ | .writeWith _ => false

/-- A step that works on the shared settings. -/
def isOnSettings : Step → Bool
  | .setSettings _ | .changeSettings _ => true
  | .setModel _ | .grow _ | .display | .renderWith _ | .writeWith _ => false

/-- A step that asks for a script. -/
def isAsking (step : Step) : Bool := !step.isOnModel && !step.isOnSettings

end Step

/-! ## Steps as they reach for what they need -/

theorem perform_eq (step : Step) (session : Session) :
    (perform step).run session = (session.answer? step, session.after step) := by
  cases step with
  | changeSettings change =>
    obtain ⟨resolution, meshConvexity⟩ := change
    cases resolution <;> cases meshConvexity <;> rfl
  | _ => rfl

theorem performAll_eq (steps : List Step) (session : Session) :
    (performAll steps).run session = (session.answers steps, session.run steps) := by
  induction steps generalizing session with
  | nil => rfl
  | cons step steps ih =>
    rw [performAll, StateT.run_bind, perform_eq]
    change ((performAll steps >>= _).run (session.after step) : Id _) = _
    rw [StateT.run_bind, ih]
    rfl

/-! ## Runs -/

/-- The model after the steps that work on it, without the other steps. -/
def modelAlone (start : Session) (steps : List Step) : Node :=
  (start.run (steps.filter Step.isOnModel)).model

/-- The settings after the steps that work on them, without the other steps. -/
def settingsAlone (start : Session) (steps : List Step) : Settings :=
  (start.run (steps.filter Step.isOnSettings)).settings

variable {start other : Session} {steps steps' : List Step} {step : Step}

theorem run_append (start : Session) (steps steps' : List Step) :
    start.run (steps ++ steps') = (start.run steps).run steps' :=
  List.foldl_append

theorem answers_append (start : Session) (steps steps' : List Step) :
    start.answers (steps ++ steps') = start.answers steps ++ (start.run steps).answers steps' := by
  induction steps generalizing start with
  | nil => rfl
  | cons step steps ih =>
    rw [List.cons_append, answers, ih, answers, List.append_assoc]
    rfl

/-- A part of a session that only some of the steps work on, and for which they need no more than
this part. -/
structure IsPart {β : Type} (part : Session → β) (isOn : Step → Bool) : Prop where
  congr : ∀ {start other : Session} (step : Step), part start = part other →
    part (start.after step) = part (other.after step)
  frame : ∀ (session : Session) {step : Step}, isOn step = false →
    part (session.after step) = part session

/-- After a run, such a part is up to what it was before and to the steps that work on it. -/
theorem IsPart.run {β : Type} {part : Session → β} {isOn : Step → Bool} (h : IsPart part isOn)
    (hsame : part start = part other) (steps : List Step) :
    part (start.run steps) = part (other.run (steps.filter isOn)) := by
  induction steps generalizing start other with
  | nil => exact hsame
  | cons step steps ih =>
    cases hstep : isOn step with
    | true =>
      rw [List.filter_cons_of_pos hstep]
      exact ih (h.congr step hsame)
    | false =>
      rw [List.filter_cons_of_neg (by simp [hstep])]
      exact ih ((h.frame start hstep).trans hsame)

theorem isPart_model : IsPart Session.model Step.isOnModel where
  congr step hsame := by
    cases step with
    | setModel model => rfl
    | grow operation => exact congrArg operation hsame
    | _ => exact hsame
  frame session step hstep := by
    cases step with
    | setModel | grow => cases hstep
    | _ => rfl

theorem isPart_settings : IsPart Session.settings Step.isOnSettings where
  congr step hsame := by
    cases step with
    | setSettings settings => rfl
    | changeSettings change => exact congrArg (·.change change) hsame
    | _ => exact hsame
  frame session step hstep := by
    cases step with
    | setSettings | changeSettings => cases hstep
    | _ => rfl

/-- A run leaves what either kind of work alone would have left. -/
theorem run_eq (start : Session) (steps : List Step) :
    start.run steps = ⟨start.modelAlone steps, start.settingsAlone steps⟩ := by
  rw [modelAlone, settingsAlone, ← isPart_model.run rfl, ← isPart_settings.run rfl]

theorem run_congr (hmodel : steps.filter Step.isOnModel = steps'.filter Step.isOnModel)
    (hsettings : steps.filter Step.isOnSettings = steps'.filter Step.isOnSettings)
    (start : Session) : start.run steps = start.run steps' := by
  rw [run_eq, modelAlone, settingsAlone, hmodel, hsettings, ← modelAlone, ← settingsAlone, ← run_eq]

theorem after_of_isAsking (h : step.isAsking = true) (session : Session) :
    session.after step = session := by
  cases step with
  | display | renderWith | writeWith => rfl
  | _ => cases h

theorem answer?_of_not_isAsking (h : step.isAsking = false) (session : Session) :
    session.answer? step = none := by
  cases step with
  | display | renderWith | writeWith => cases h
  | _ => rfl

theorem answers_of_not_isAsking (h : ∀ step ∈ steps, step.isAsking = false) (start : Session) :
    start.answers steps = [] := by
  induction steps generalizing start with
  | nil => rfl
  | cons step steps ih =>
    rw [answers, answer?_of_not_isAsking (h step List.mem_cons_self),
      ih fun later hlater => h later (List.mem_cons_of_mem step hlater)]
    rfl

theorem Step.isOnSettings_of_isOnModel (h : step.isOnModel = true) : step.isOnSettings = false := by
  cases step with
  | setModel | grow => rfl
  | _ => cases h

theorem Step.isOnModel_of_isOnSettings (h : step.isOnSettings = true) : step.isOnModel = false := by
  cases step with
  | setSettings | changeSettings => rfl
  | _ => cases h

/-! ## Model and settings keep apart -/

/-- Scripts are made when they are asked for, of a model and of settings that keep apart. -/
structure KeepsApart (start : Session) : Prop where
  /-- Access by access, the steps come to the answers and to the session that are meant. -/
  performed : ∀ steps, (performAll steps).run start = (start.answers steps, start.run steps)
  /-- What a run leaves is what either kind of work alone would have left. -/
  run : ∀ steps, start.run steps = ⟨start.modelAlone steps, start.settingsAlone steps⟩
  /-- The work on the model has no use for the settings at the start. -/
  modelAlone : ∀ (other : Session) steps, other.model = start.model →
    other.modelAlone steps = start.modelAlone steps
  /-- The work on the settings has no use for the model at the start. -/
  settingsAlone : ∀ (other : Session) steps, other.settings = start.settings →
    other.settingsAlone steps = start.settingsAlone steps
  /-- The shared settings are those of the moment at which the script is asked for. -/
  display : ∀ before rest, start.answers (before ++ .display :: rest) = start.answers before
    ++ (start.modelAlone before).render (start.settingsAlone before)
    :: (start.run before).answers rest
  renderWith : ∀ before own rest, start.answers (before ++ .renderWith own :: rest)
    = start.answers before ++ (start.modelAlone before).render own
      :: (start.run before).answers rest
  writeWith : ∀ before own rest, start.answers (before ++ .writeWith own :: rest)
    = start.answers before ++ ((start.modelAlone before).render own).line
      :: (start.run before).answers rest
  /-- Who asks for a script changes nothing. -/
  asking : ∀ before step rest, step.isAsking = true →
    start.run (before ++ step :: rest) = start.run (before ++ rest)
  /-- Who works is not answered. -/
  working : ∀ before step rest, step.isAsking = false →
    start.answers (before ++ step :: rest)
      = start.answers before ++ (start.run (before ++ [step])).answers rest
  /-- With settings of one's own the shared ones do not matter, neither at the start nor later. -/
  ownSettings : ∀ (other : Session) (steps steps' : List Step), other.model = start.model →
    steps.filter Step.isOnModel = steps'.filter Step.isOnModel → ∀ own,
      (start.run steps).answers [.renderWith own, .writeWith own]
        = (other.run steps').answers [.renderWith own, .writeWith own]
  /-- How the two kinds of work take turns does not matter. -/
  interleaved : ∀ steps steps', steps.filter Step.isOnModel = steps'.filter Step.isOnModel →
    steps.filter Step.isOnSettings = steps'.filter Step.isOnSettings →
      start.run steps = start.run steps'
  /-- A model that is built before the settings change has the script of one that is built after. -/
  earlyOrLate : ∀ build change, (∀ step ∈ build, step.isOnModel = true) →
    (∀ step ∈ change, step.isOnSettings = true) →
      start.answers (build ++ change ++ [.display])
          = [(start.run build).model.render (start.run change).settings]
        ∧ start.answers (change ++ build ++ [.display])
          = [(start.run build).model.render (start.run change).settings]

theorem answers_asking {text : Text} (start : Session) (before rest : List Step)
    (hasking : step.isAsking = true) (htext : (start.run before).answer? step = some text) :
    start.answers (before ++ step :: rest)
      = start.answers before ++ text :: (start.run before).answers rest := by
  rw [answers_append, answers, htext, after_of_isAsking hasking]
  rfl

theorem run_asking (hasking : step.isAsking = true) (start : Session) (before rest : List Step) :
    start.run (before ++ step :: rest) = start.run (before ++ rest) := by
  rw [run_append, run_append, run, List.foldl_cons, after_of_isAsking hasking, ← run]

theorem answers_working (hworking : step.isAsking = false) (start : Session)
    (before rest : List Step) :
    start.answers (before ++ step :: rest)
      = start.answers before ++ (start.run (before ++ [step])).answers rest := by
  rw [answers_append, answers, answer?_of_not_isAsking hworking, run_append]
  rfl

theorem filter_isOnModel (h : ∀ step ∈ steps, step.isOnSettings = true) :
    steps.filter Step.isOnModel = [] :=
  List.filter_eq_nil_iff.2 fun step hstep => by simp [Step.isOnModel_of_isOnSettings (h step hstep)]

theorem filter_isOnSettings (h : ∀ step ∈ steps, step.isOnModel = true) :
    steps.filter Step.isOnSettings = [] :=
  List.filter_eq_nil_iff.2 fun step hstep => by simp [Step.isOnSettings_of_isOnModel (h step hstep)]

/-- The script after any work that comes to `build` on the model and to `change` on the settings. -/
theorem answers_display_of_work {build change : List Step} (start : Session)
    (hwork : ∀ step ∈ steps, step.isOnModel = true ∨ step.isOnSettings = true)
    (hbuild : steps.filter Step.isOnModel = build)
    (hchange : steps.filter Step.isOnSettings = change) :
    start.answers (steps ++ [.display])
      = [(start.run build).model.render (start.run change).settings] := by
  have hquiet : start.answers steps = [] := by
    apply answers_of_not_isAsking
    intro step hstep
    rcases hwork step hstep with h | h <;> simp [Step.isAsking, h]
  rw [answers_append, hquiet, run_eq, modelAlone, settingsAlone, hbuild, hchange]
  rfl

/-- Model and settings keep apart, from wherever a session starts. -/
theorem keepsApart (start : Session) : KeepsApart start where
  performed steps := performAll_eq steps start
  run := run_eq start
  modelAlone other steps h := by
    rw [Session.modelAlone, isPart_model.run h, List.filter_filter]
    simp only [Bool.and_self]
    rfl
  settingsAlone other steps h := by
    rw [Session.settingsAlone, isPart_settings.run h, List.filter_filter]
    simp only [Bool.and_self]
    rfl
  display before rest := answers_asking start before rest rfl (by rw [run_eq]; rfl)
  renderWith before own rest := answers_asking start before rest rfl (by rw [run_eq]; rfl)
  writeWith before own rest := answers_asking start before rest rfl (by rw [run_eq]; rfl)
  asking before step rest h := run_asking h start before rest
  working before step rest h := answers_working h start before rest
  ownSettings other steps steps' h hsteps own := by
    have hmodel : (start.run steps).model = (other.run steps').model := by
      rw [isPart_model.run h.symm, hsteps, ← isPart_model.run rfl]
    change [(start.run steps).model.render own, ((start.run steps).model.render own).line] = _
    rw [hmodel]
    rfl
  interleaved steps steps' hmodel hsettings := run_congr hmodel hsettings start
  earlyOrLate build change hbuild hchange := by
    have hmodel := List.filter_eq_self.2 hbuild
    have hsettings := List.filter_eq_self.2 hchange
    constructor
    · refine answers_display_of_work start ?_ ?_ ?_
      · intro step hstep
        exact (List.mem_append.1 hstep).imp (hbuild step) (hchange step)
      · rw [List.filter_append, hmodel, filter_isOnModel hchange, List.append_nil]
      · rw [List.filter_append, hsettings, filter_isOnSettings hbuild, List.nil_append]
    · refine answers_display_of_work start ?_ ?_ ?_
      · intro step hstep
        exact (List.mem_append.1 hstep).symm.imp (hbuild step) (hchange step)
      · rw [List.filter_append, hmodel, filter_isOnModel hchange, List.nil_append]
      · rw [List.filter_append, hsettings, filter_isOnSettings hbuild, List.append_nil]

/-- A sphere is set, doubled and shifted while the settings change twice: in turns, and with all
settings first. Both sessions end alike, and whoever looks sees the settings of that moment. -/
theorem keepsApart_of_turns :
    let four := Binary64.ofRatio false 4 1
    let twelve : Settings := { resolution := 12 }
    let setModel := Step.setModel (.sphere four)
    let grow := Step.grow (·.unitedWith (.cube ⟨four, four, four⟩ true))
    let coarser := Step.setSettings twelve
    let hint := Step.changeSettings { meshConvexity := some (some 3) }
    let inTurns := [setModel, .display, coarser, .renderWith { resolution := 7 }, hint, grow]
    let settingsFirst := [coarser, hint, setModel, grow]
    ({} : Session).run inTurns = ({} : Session).run settingsFirst
      ∧ ({} : Session).answers ([setModel] ++ .display :: [coarser, .display])
        = ["sphere(4, $fn=50);".toList, "sphere(4, $fn=12);".toList]
      ∧ ({} : Session).answers ([setModel, grow] ++ [coarser, hint] ++ [.display])
        = ({} : Session).answers ([coarser, hint] ++ [setModel, grow] ++ [.display]) := by
  intro four twelve setModel grow coarser hint inTurns settingsFirst
  have h := keepsApart {}
  obtain ⟨hearly, hlate⟩ := h.earlyOrLate [setModel, grow] [coarser, hint] (by decide) (by decide)
  refine ⟨h.interleaved inTurns settingsFirst rfl rfl, ?_, hearly.trans hlate.symm⟩
  rw [h.display [setModel] [coarser, .display]]
  decide +kernel

end Session

end SolidScript
