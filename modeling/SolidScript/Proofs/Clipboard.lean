import SolidScript.Proofs.Sinks

/-!
# One delivery

A text is offered to the copiers in their order, up to the first that is there, and to no other.
That copier decides how the copying ends. The offers are followed on any host (`Missing`,
`FirstThere`), which may answer each of them as it likes, the same program asked twice included. On
a machine they say what is started, with what to read, and what is left alone. All of it together
is `DeliversOnce`.
-/

namespace SolidScript

open Machine

namespace Clipboard

/-- How copying ends with a copier that is there. -/
def Copier.verdict (copier : Copier) : Feeding → Except Fault Unit
  | .notStarted cause => .error (.launch copier.program cause)
  | .brokenOff cause => .error (.launch copier.program cause)
  | .ended status => if status.isSuccess then .ok () else .error (.exit copier.program status)

theorem Copier.verdict_ne_noClipboard (copier : Copier) (outcome : Feeding) :
    copier.verdict outcome ≠ .error .noClipboard := by
  cases outcome with
  | ended status =>
    rw [verdict]
    split <;> simp
  | _ => simp [verdict]

theorem Copier.verdict_eq_ok_iff {copier : Copier} {outcome : Feeding} :
    copier.verdict outcome = .ok () ↔ ∃ status, outcome = .ended status ∧ status.isSuccess := by
  cases outcome <;> simp [verdict]

/-- A fault names the copier it comes from. -/
theorem Copier.names_of_verdict {copier : Copier} {outcome : Feeding} {fault : Fault}
    (h : copier.verdict outcome = .error fault) :
    (∃ cause, fault = .launch copier.program cause)
      ∨ ∃ status, fault = .exit copier.program status := by
  cases outcome with
  | notStarted cause => exact .inl ⟨cause, (Except.error.inj h).symm⟩
  | brokenOff cause => exact .inl ⟨cause, (Except.error.inj h).symm⟩
  | ended status =>
    rw [verdict] at h
    split at h
    next => cases h
    next => exact .inr ⟨status, (Except.error.inj h).symm⟩

/-! ## Offers on any host -/

section Offers

variable {σ : Type} [Host (StateM σ)]

/-- What comes of giving a text to a copier, and the host after it. -/
def Copier.offer (copier : Copier) (t : Text) (s : σ) : Feeding × σ :=
  (Host.feed copier.program copier.arguments (Utf8.encode t) : StateM σ Feeding).run s

/-- The host after it has been told that a copier has copied a text, if it has. -/
def Copier.told (copier : Copier) (t : Text) (s : σ) : Except Fault Unit → σ
  | .ok () => ((Host.log (copied (Utf8.size t) copier.program) : StateM σ Unit).run s).2
  | .error _ => s

/-- How copying a text ends on a host, and the host after it. -/
def outcome (t : Text) (copiers : List Copier) (s : σ) : Except Fault Unit × σ :=
  ((copyWith t copiers : ExceptT Fault (StateM σ) Unit).run : StateM σ _).run s

/-- None of the copiers is there when the text is offered to all of them, one after the other. -/
inductive Missing (t : Text) : σ → List Copier → σ → Prop
  | nil (s : σ) : Missing t s [] s
  | cons {s s₁ s₂ : σ} {copier : Copier} {others : List Copier} :
      copier.offer t s = (.notStarted .notFound, s₁) → Missing t s₁ others s₂ →
      Missing t s (copier :: others) s₂

/-- The text is offered up to a copier that is there: those before it are missing, and those
behind it are not asked. -/
def FirstThere (t : Text) (s : σ) (copiers : List Copier) (copier : Copier) (answer : Feeding)
    (s' : σ) : Prop :=
  ∃ missing untried s₁, copiers = missing ++ copier :: untried ∧ Missing t s missing s₁
    ∧ copier.offer t s₁ = (answer, s') ∧ answer ≠ .notStarted .notFound

variable {t : Text} {s s' : σ} {copiers : List Copier}

/-- One offer, and then the verdict or the offers to the copiers behind. -/
theorem outcome_cons (copier : Copier) (others : List Copier) :
    outcome t (copier :: others) s =
      match (copier.offer t s).1 with
      | .notStarted .notFound => outcome t others (copier.offer t s).2
      | answer =>
        (copier.verdict answer, copier.told t (copier.offer t s).2 (copier.verdict answer)) := by
  have hstep (next : Feeding → ExceptT Fault (StateM σ) Unit) :
      StateT.run (liftM (Host.feed (m := StateM σ) copier.program copier.arguments (Utf8.encode t))
        >>= next).run s = StateT.run (next (copier.offer t s).1).run (copier.offer t s).2 := rfl
  rw [outcome, copyWith, hstep]
  generalize copier.offer t s = offered
  obtain ⟨answer, s₁⟩ := offered
  cases answer with
  | notStarted cause => cases cause <;> rfl
  | brokenOff cause => rfl
  | ended status =>
    simp only [Copier.verdict]
    split <;> rfl

/-- Behind copiers that are not there the copying goes on as if it started. -/
theorem outcome_append_of_missing (h : Missing t s copiers s') (others : List Copier) :
    outcome t (copiers ++ others) s = outcome t others s' := by
  induction h with
  | nil => rfl
  | cons hoffer _ ih => rw [List.cons_append, outcome_cons, hoffer, ih]

theorem outcome_of_missing (h : Missing t s copiers s') :
    outcome t copiers s = (.error .noClipboard, s') := by
  rw [← List.append_nil copiers, outcome_append_of_missing h]
  rfl

theorem outcome_of_firstThere {copier : Copier} {answer : Feeding}
    (h : FirstThere t s copiers copier answer s') :
    outcome t copiers s = (copier.verdict answer, copier.told t s' (copier.verdict answer)) := by
  obtain ⟨missing, untried, s₁, rfl, hmissing, hoffer, hthere⟩ := h
  rw [outcome_append_of_missing hmissing, outcome_cons, hoffer]
  dsimp only
  split
  next => exact absurd rfl hthere
  next => rfl

/-- Either nobody is there, or somebody is the first. -/
theorem missing_or_firstThere (t : Text) (s : σ) (copiers : List Copier) :
    (∃ s', Missing t s copiers s')
      ∨ ∃ copier answer s', FirstThere t s copiers copier answer s' := by
  induction copiers generalizing s with
  | nil => exact .inl ⟨s, .nil s⟩
  | cons copier others ih =>
    rcases hoffer : copier.offer t s with ⟨answer, s₁⟩
    by_cases hthere : answer = .notStarted .notFound
    · rw [hthere] at hoffer
      rcases ih s₁ with ⟨s', hmissing⟩ | ⟨first, answer, s', missing, untried, s₂, rfl, hmissing,
        hfirst⟩
      · exact .inl ⟨s', .cons hoffer hmissing⟩
      · exact .inr ⟨first, answer, s', copier :: missing, untried, s₂, rfl, .cons hoffer hmissing,
          hfirst⟩
    · exact .inr ⟨copier, answer, s₁, [], others, s, rfl, .nil s, hoffer, hthere⟩

theorem outcome_eq_noClipboard_iff :
    (outcome t copiers s).1 = .error .noClipboard ↔ ∃ s', Missing t s copiers s' := by
  constructor
  · intro h
    rcases missing_or_firstThere t s copiers with hmissing | ⟨copier, answer, s', hfirst⟩
    · exact hmissing
    · rw [outcome_of_firstThere hfirst] at h
      exact absurd h (copier.verdict_ne_noClipboard answer)
  · rintro ⟨s', hmissing⟩
    rw [outcome_of_missing hmissing]

theorem outcome_eq_ok_iff :
    (outcome t copiers s).1 = .ok () ↔ ∃ copier status s',
      FirstThere t s copiers copier (.ended status) s' ∧ status.isSuccess := by
  constructor
  · intro h
    rcases missing_or_firstThere t s copiers with ⟨s', hmissing⟩ | ⟨copier, answer, s', hfirst⟩
    · rw [outcome_of_missing hmissing] at h
      cases h
    · rw [outcome_of_firstThere hfirst] at h
      obtain ⟨status, rfl, hsuccess⟩ := Copier.verdict_eq_ok_iff.mp h
      exact ⟨copier, status, s', hfirst, hsuccess⟩
  · rintro ⟨copier, status, s', hfirst, hsuccess⟩
    rw [outcome_of_firstThere hfirst]
    exact Copier.verdict_eq_ok_iff.mpr ⟨status, rfl, hsuccess⟩

end Offers

/-! ## Offers on a machine -/

/-- A copier is there, and those before it are not. -/
def IsFirst (m : Machine) (copiers : List Copier) (copier : Copier) : Prop :=
  ∃ missing untried, copiers = missing ++ copier :: untried
    ∧ (∀ other ∈ missing, m.tool other.program = .refuses .notFound)
    ∧ m.tool copier.program ≠ .refuses .notFound

/-- What is started when a copier is given a text to read. -/
def Copier.startedBy (copier : Copier) (t : Text) : Tool → List Started
  | .refuses _ => []
  | .breaksOff _ | .ends _ => [copier.started t]

/-- What a copier answers to an offer, by how its program behaves. -/
def answerOf : Tool → Feeding
  | .refuses cause => .notStarted cause
  | .breaksOff cause => .brokenOff cause
  | .ends status => .ended status

variable {m n : Machine} {t : Text} {copiers : List Copier} {copier : Copier}

theorem offer_eq (m : Machine) (copier : Copier) (t : Text) :
    copier.offer t m = (answerOf (m.tool copier.program),
      { m with started := m.started ++ copier.startedBy t (m.tool copier.program) }) := by
  show m.feed copier.program copier.arguments (Utf8.encode t) = _
  rw [feed]
  cases m.tool copier.program with
  | refuses cause => simp [answerOf, Copier.startedBy]
  | _ => rfl

theorem answerOf_eq_iff {tool : Tool} :
    answerOf tool = .notStarted .notFound ↔ tool = .refuses .notFound := by
  cases tool <;> simp [answerOf]

theorem answerOf_eq_ended_iff {tool : Tool} {status : ExitStatus} :
    answerOf tool = .ended status ↔ tool = .ends status := by
  cases tool <;> simp [answerOf]

/-- Offers that find nobody leave a machine as it is. -/
theorem missing_iff :
    Missing t m copiers n ↔ (∀ copier ∈ copiers, m.tool copier.program = .refuses .notFound)
      ∧ n = m := by
  constructor
  · intro h
    induction h with
    | nil => simp
    | @cons m m₁ n copier others hoffer _ ih =>
      rw [offer_eq, Prod.mk.injEq, answerOf_eq_iff] at hoffer
      obtain ⟨htool, rfl⟩ := hoffer
      rw [htool, Copier.startedBy, List.append_nil] at ih
      exact ⟨List.forall_mem_cons.mpr ⟨htool, ih.1⟩, ih.2⟩
  · rintro ⟨h, rfl⟩
    induction copiers with
    | nil => exact .nil n
    | cons copier others ih =>
      obtain ⟨htool, hothers⟩ := List.forall_mem_cons.mp h
      refine .cons ?_ (ih hothers)
      rw [offer_eq, htool, Copier.startedBy, List.append_nil]
      rfl

theorem IsFirst.firstThere (h : IsFirst m copiers copier) (t : Text) :
    FirstThere t m copiers copier (answerOf (m.tool copier.program))
      { m with started := m.started ++ copier.startedBy t (m.tool copier.program) } := by
  obtain ⟨missing, untried, rfl, hmissing, hthere⟩ := h
  exact ⟨missing, untried, m, rfl, missing_iff.mpr ⟨hmissing, rfl⟩, offer_eq m copier t,
    mt answerOf_eq_iff.mp hthere⟩

theorem IsFirst.of_firstThere {answer : Feeding} (h : FirstThere t m copiers copier answer n) :
    IsFirst m copiers copier ∧ answer = answerOf (m.tool copier.program) := by
  obtain ⟨missing, untried, _, rfl, hmissing, hoffer, hthere⟩ := h
  obtain ⟨hnone, rfl⟩ := missing_iff.mp hmissing
  rw [offer_eq, Prod.mk.injEq] at hoffer
  obtain ⟨rfl, -⟩ := hoffer
  exact ⟨⟨missing, untried, rfl, hnone, mt answerOf_eq_iff.mpr hthere⟩, rfl⟩

/-- Telling a machine that a text was copied leaves all else as it is. -/
theorem alike_told (copier : Copier) (t : Text) (m : Machine) (r : Except Fault Unit) :
    Alike (copier.told t m r) m := by
  cases r with
  | ok => exact (does_log m _).alike
  | error => exact .refl m

/-! ## The delivery -/

/-- A text that is copied with the first of several copiers goes to that one or to none. -/
structure DeliversOnce (t : Text) (copiers : List Copier) : Prop where
  /-- Where every copier is missing, all of them are asked and nothing else is done. -/
  of_missing {σ : Type} [Host (StateM σ)] {s s' : σ} :
    Missing t s copiers s' → outcome t copiers s = (.error .noClipboard, s')
  /-- The first copier that is there is the last that is asked, and its answer is the verdict. -/
  of_firstThere {σ : Type} [Host (StateM σ)] {s s' : σ} {copier : Copier} {answer : Feeding} :
    FirstThere t s copiers copier answer s' →
      outcome t copiers s = (copier.verdict answer, copier.told t s' (copier.verdict answer))
  missing_or_firstThere {σ : Type} [Host (StateM σ)] (s : σ) :
    (∃ s', Missing t s copiers s') ∨ ∃ copier answer s', FirstThere t s copiers copier answer s'
  /-- It is told that there is no copier if and only if every one of them is missing. -/
  noClipboard_iff {σ : Type} [Host (StateM σ)] (s : σ) :
    (outcome t copiers s).1 = .error .noClipboard ↔ ∃ s', Missing t s copiers s'
  /-- The text is copied if and only if the first copier that is there reads all of it and comes to
  a good end. -/
  ok_iff {σ : Type} [Host (StateM σ)] (s : σ) :
    (outcome t copiers s).1 = .ok () ↔ ∃ copier status s',
      FirstThere t s copiers copier (.ended status) s' ∧ status.isSuccess
  /-- Any other fault names the first copier that is there. -/
  fault_names {σ : Type} [Host (StateM σ)] {s s' : σ} {copier : Copier} {answer : Feeding}
    {fault : Fault} :
    FirstThere t s copiers copier answer s' → (outcome t copiers s).1 = .error fault →
      (∃ cause, fault = .launch copier.program cause)
        ∨ ∃ status, fault = .exit copier.program status
  noClipboard_iff_tools (m : Machine) :
    (outcome t copiers m).1 = .error .noClipboard ↔
      ∀ copier ∈ copiers, m.tool copier.program = .refuses .notFound
  ok_iff_tools (m : Machine) :
    (outcome t copiers m).1 = .ok () ↔ ∃ copier status,
      IsFirst m copiers copier ∧ m.tool copier.program = .ends status ∧ status.isSuccess
  /-- Where no copier is there a machine is left alone. -/
  alike_of_missing {m : Machine} :
    (∀ copier ∈ copiers, m.tool copier.program = .refuses .notFound) →
      Alike (outcome t copiers m).2 m
  /-- At most the first copier that is there is started, with its own arguments, and is given the
  text to read and nothing more. All else is left alone. -/
  alike_of_isFirst {m : Machine} {copier : Copier} :
    IsFirst m copiers copier → Alike (outcome t copiers m).2
      { m with started := m.started ++ copier.startedBy t (m.tool copier.program) }

theorem deliversOnce (t : Text) (copiers : List Copier) : DeliversOnce t copiers where
  of_missing := outcome_of_missing
  of_firstThere := outcome_of_firstThere
  missing_or_firstThere s := missing_or_firstThere t s copiers
  noClipboard_iff _ := outcome_eq_noClipboard_iff
  ok_iff _ := outcome_eq_ok_iff
  fault_names hfirst hfault := by
    rw [outcome_of_firstThere hfirst] at hfault
    exact Copier.names_of_verdict hfault
  noClipboard_iff_tools m := by
    simp only [outcome_eq_noClipboard_iff, missing_iff, exists_and_left, exists_eq, and_true]
  ok_iff_tools m := by
    rw [outcome_eq_ok_iff]
    constructor
    · rintro ⟨copier, status, n, hfirst, hsuccess⟩
      obtain ⟨hisFirst, hanswer⟩ := IsFirst.of_firstThere hfirst
      exact ⟨copier, status, hisFirst, answerOf_eq_ended_iff.mp hanswer.symm, hsuccess⟩
    · rintro ⟨copier, status, hfirst, htool, hsuccess⟩
      have hthere := hfirst.firstThere t
      rw [answerOf_eq_ended_iff.mpr htool] at hthere
      exact ⟨copier, status, _, hthere, hsuccess⟩
  alike_of_missing h := by
    rw [outcome_of_missing (missing_iff.mpr ⟨h, rfl⟩)]
    exact .refl _
  alike_of_isFirst h := by
    rw [outcome_of_firstThere (h.firstThere t)]
    exact alike_told _ t _ _

/-- A copier that is there and breaks off is not followed by another that would copy the text. -/
example : let m : Machine := { programs := [("wl-copy".toList, .breaksOff .brokenPipe),
      ("xclip".toList, .ends (.code 0))] }
    let (r, n) := outcome ['h', 'i'] Clipboard.copiers m
    r = .error (.launch "wl-copy".toList .brokenPipe)
      ∧ n.started = [⟨"wl-copy".toList, [], some [104, 105]⟩] := by
  decide

end Clipboard

end SolidScript
