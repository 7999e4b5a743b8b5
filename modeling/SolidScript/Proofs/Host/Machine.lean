import SolidScript.Host.Machine
import SolidScript.Proofs.Host.Disk

/-!
# Actions on a machine

What an action `Does` on a machine: its answer, and the machine after it up to what has been told.
What has been told is all that goes to the log and to the error stream, and no action looks at it,
so the actions of a program can be put together whatever has been told in between (`Does.bind`,
`Does.bind_ok`, `Does.bind_error`). Each question to the host has a lemma of its own.
-/

namespace SolidScript

namespace Machine

variable {α : Type}

/-- What an action answers on a machine. -/
def answer (machine : Machine) (action : StateM Machine α) : α := (action.run machine).1

/-- The machine after an action. -/
def after (machine : Machine) (action : StateM Machine α) : Machine := (action.run machine).2

theorem after_bind {β : Type} (machine : Machine) (action : StateM Machine α)
    (next : α → StateM Machine β) :
    machine.after (action >>= next) = (machine.after action).after (next (machine.answer action)) :=
  rfl

/-- The machines differ at most in what has been told. -/
def Alike (machine other : Machine) : Prop :=
  ∃ errors records logger, machine = { other with errors, records, logger }

theorem Alike.refl (machine : Machine) : Alike machine machine := ⟨_, _, _, rfl⟩

theorem Alike.symm {m n : Machine} (h : Alike m n) : Alike n m := by
  obtain ⟨_, _, _, rfl⟩ := h
  exact ⟨_, _, _, rfl⟩

theorem Alike.trans {m n o : Machine} (h : Alike m n) (h' : Alike n o) : Alike m o := by
  obtain ⟨_, _, _, rfl⟩ := h
  obtain ⟨_, _, _, rfl⟩ := h'
  exact ⟨_, _, _, rfl⟩

end Machine

open Machine

/-- On a machine, and whatever it has been told, the action gives the answer `a` and leaves the
machine `n`, but for what it tells. -/
def Does {α : Type} (action : StateM Machine α) (m : Machine) (a : α) (n : Machine) : Prop :=
  ∀ machine, Alike machine m → machine.answer action = a ∧ Alike (machine.after action) n

namespace Does

variable {α β ε : Type} {m n o : Machine}

theorem answer_eq {action : StateM Machine α} {a : α} (h : Does action m a n) :
    m.answer action = a := (h m (.refl m)).1

theorem alike {action : StateM Machine α} {a : α} (h : Does action m a n) :
    Alike (m.after action) n := (h m (.refl m)).2

/-! ## Putting actions together -/

theorem pure (m : Machine) (a : α) : Does (Pure.pure a) m a m := fun _ h => ⟨rfl, h⟩

theorem bind {action : StateM Machine α} {next : α → StateM Machine β} {a : α} {b : β}
    (h : Does action m a n) (hnext : Does (next a) n b o) : Does (action >>= next) m b o := by
  intro machine halike
  obtain ⟨rfl, hafter⟩ := h machine halike
  exact hnext (machine.after action) hafter

theorem map {action : StateM Machine α} {a : α} (h : Does action m a n) (f : α → β) :
    Does (f <$> action) m (f a) n := by
  rw [map_eq_pure_bind]
  exact h.bind (.pure n (f a))

/-- A step that does not fail is followed by the next one. -/
theorem bind_ok {step : ExceptT ε (StateM Machine) α} {next : α → ExceptT ε (StateM Machine) β}
    {a : α} {r : Except ε β} (h : Does step.run m (.ok a) n) (hnext : Does (next a).run n r o) :
    Does (step >>= next).run m r o := by
  rw [ExceptT.run_bind]
  exact h.bind hnext

/-- A step that fails is the last one. -/
theorem bind_error {step : ExceptT ε (StateM Machine) α}
    {next : α → ExceptT ε (StateM Machine) β} {e : ε} (h : Does step.run m (.error e) n) :
    Does (step >>= next).run m (.error e) n := by
  rw [ExceptT.run_bind]
  exact h.bind (.pure n _)

/-- A step that changes nothing, and the next one if it does not fail. -/
theorem bind_asked {step : ExceptT ε (StateM Machine) α}
    {next : α → ExceptT ε (StateM Machine) β} {r : Except ε α} {f : α → Except ε β}
    (h : Does step.run m r m) (hnext : ∀ a, Does (next a).run m (f a) m) :
    Does (step >>= next).run m (r.bind f) m := by
  cases r with
  | ok a => exact h.bind_ok (hnext a)
  | error e => exact h.bind_error

theorem pure_ok (m : Machine) (a : α) :
    Does (Pure.pure a : ExceptT ε (StateM Machine) α).run m (.ok a) m := .pure m _

theorem throw (m : Machine) (e : ε) :
    Does (MonadExcept.throw e : ExceptT ε (StateM Machine) α).run m (.error e) m := .pure m _

/-- An action as a step that does not fail. -/
theorem lift {action : StateM Machine α} {a : α} (h : Does action m a n) :
    Does (liftM action : ExceptT ε (StateM Machine) α).run m (.ok a) n := h.map Except.ok

/-- A step that is taken or left out, and the next one. -/
theorem bind_when {taken : Bool} {step : ExceptT ε (StateM Machine) Unit}
    {next : Unit → ExceptT ε (StateM Machine) β} {r : Except ε β}
    (htaken : taken = true → Does step.run m (.ok ()) n) (hleft : taken = false → n = m)
    (hnext : Does (next ()).run n r o) :
    Does (if taken = true then step >>= next else next ()).run m r o := by
  cases taken with
  | true => exact (htaken rfl).bind_ok hnext
  | false =>
    rw [hleft rfl] at hnext
    exact hnext

end Does

/-! ## Questions to the host -/

namespace Machine

variable (m : Machine)

theorem does_readFile (file : Path) :
    Does (Host.readFile file) m (m.disk.read m.here file) m := by
  rintro _ ⟨_, _, _, rfl⟩
  exact ⟨rfl, _, _, _, rfl⟩

theorem does_exists? (file : Path) : Does (Host.exists? file) m (m.disk.exists? m.here file) m := by
  rintro _ ⟨_, _, _, rfl⟩
  exact ⟨rfl, _, _, _, rfl⟩

theorem run_writeFile (file : Path) (content : Bytes) :
    (Host.writeFile file content : StateM Machine (Except OsError Unit)).run m =
      match m.disk.write m.here file content with
      | .error e => (.error e, m)
      | .ok disk => (.ok (), { m with disk }) := by
  simp only [Host.writeFile, StateT.run_bind, StateT.run_get, pure_bind]
  cases m.disk.write m.here file content <;> rfl

variable {m} in
theorem does_writeFile_ok {file : Path} {content : Bytes} {disk : Disk}
    (h : m.disk.write m.here file content = .ok disk) :
    Does (Host.writeFile file content) m (.ok ()) { m with disk } := by
  rintro _ ⟨errors, records, logger, rfl⟩
  have hwrite : { m with errors, records, logger }.disk.write
      { m with errors, records, logger }.here file content = .ok disk := h
  rw [answer, after, run_writeFile, hwrite]
  exact ⟨rfl, _, _, _, rfl⟩

variable {m} in
theorem does_writeFile_error {file : Path} {content : Bytes} {cause : OsError}
    (h : m.disk.write m.here file content = .error cause) :
    Does (Host.writeFile file content) m (.error cause) m := by
  rintro _ ⟨errors, records, logger, rfl⟩
  have hwrite : { m with errors, records, logger }.disk.write
      { m with errors, records, logger }.here file content = .error cause := h
  rw [answer, after, run_writeFile, hwrite]
  exact ⟨rfl, _, _, _, rfl⟩

theorem does_lookup (name : Text) :
    Does (Host.lookup name) m (m.environment.lookup name) m := by
  rintro _ ⟨_, _, _, rfl⟩
  exact ⟨rfl, _, _, _, rfl⟩

theorem does_feed (program : Text) (arguments : List Text) (input : Bytes) :
    Does (Host.feed program arguments input) m (m.feed program arguments input).1
      (m.feed program arguments input).2 := by
  rintro _ ⟨errors, records, logger, rfl⟩
  have htool : { m with errors, records, logger }.tool program = m.tool program := rfl
  show (feed _ program arguments input).1 = _ ∧ Alike (feed _ program arguments input).2 _
  rw [feed, feed, htool]
  cases m.tool program <;> exact ⟨rfl, _, _, _, rfl⟩

theorem does_launch (program : Text) (file : Path) :
    Does (Host.launch program file) m (m.launch program file).1 (m.launch program file).2 := by
  rintro _ ⟨errors, records, logger, rfl⟩
  have htool : { m with errors, records, logger }.tool program = m.tool program := rfl
  show (launch _ program file).1 = _ ∧ Alike (launch _ program file).2 _
  rw [launch, launch, htool]
  cases m.tool program <;> exact ⟨rfl, _, _, _, rfl⟩

/-- A file under a new name is written where there was nothing. -/
theorem writeNew_cases (directory : Path) (start stop : Text) (content : Bytes) :
    (∃ cause, m.writeNew directory start stop content = (.error cause, m))
      ∨ ∃ file disk, m.disk.exists? m.here file = false
        ∧ m.disk.write m.here file content = .ok disk
        ∧ m.writeNew directory start stop content = (.ok file, { m with disk }) := by
  rw [writeNew]
  split
  next e _ => exact .inl ⟨e, rfl⟩
  next directory _ =>
    cases hfind : (m.newPaths directory start stop).find? fun file =>
        !m.disk.exists? m.here file with
    | none => exact .inl ⟨_, rfl⟩
    | some file =>
      have hnew : m.disk.exists? m.here file = false := by simpa using List.find?_some hfind
      cases hwrite : m.disk.write m.here file content with
      | error e => exact .inl ⟨e, by simp [hwrite]⟩
      | ok disk => exact .inr ⟨file, disk, hnew, hwrite, by simp [hwrite]⟩

/-- Making a file under a new name takes no look at what has been told. -/
theorem writeNew_told (directory : Path) (start stop : Text) (content : Bytes) (errors : Text)
    (records : List Record) (logger : Option Logger) :
    { m with errors, records, logger }.writeNew directory start stop content
      = ((m.writeNew directory start stop content).1,
          { (m.writeNew directory start stop content).2 with errors, records, logger }) := by
  have habsolute : { m with errors, records, logger }.absolute directory = m.absolute directory :=
    rfl
  have hpaths (directory : Path) : { m with errors, records, logger }.newPaths directory start stop
      = m.newPaths directory start stop := rfl
  have hhere : { m with errors, records, logger }.here = m.here := rfl
  simp only [writeNew, habsolute, hpaths, hhere]
  cases m.absolute directory with
  | error e => rfl
  | ok directory =>
    dsimp only
    cases (m.newPaths directory start stop).find? fun file => !m.disk.exists? m.here file with
    | none => rfl
    | some file =>
      dsimp only
      cases m.disk.write m.here file content <;> rfl

theorem does_writeNew (directory : Path) (start stop : Text) (content : Bytes) :
    Does (Host.writeNew directory start stop content) m
      (m.writeNew directory start stop content).1
      (m.writeNew directory start stop content).2 := by
  rintro _ ⟨errors, records, logger, rfl⟩
  show (writeNew _ directory start stop content).1 = _
    ∧ Alike (writeNew _ directory start stop content).2 _
  rw [writeNew_told]
  exact ⟨rfl, _, _, _, rfl⟩

theorem does_print (t : Text) :
    Does (Host.print t) m () { m with output := m.output ++ t } := by
  rintro _ ⟨_, _, _, rfl⟩
  exact ⟨rfl, _, _, _, rfl⟩

theorem does_report (t : Text) : Does (Host.report t) m () m := by
  rintro _ ⟨_, _, _, rfl⟩
  exact ⟨rfl, _, _, _, rfl⟩

theorem does_log (record : Record) : Does (Host.log record) m () m := by
  rintro _ ⟨_, _, _, rfl⟩
  exact ⟨rfl, _, _, _, rfl⟩

theorem does_setLogger (logger : Logger) : Does (Host.setLogger logger) m () m := by
  rintro _ ⟨_, _, _, rfl⟩
  exact ⟨rfl, _, _, _, rfl⟩

theorem does_clock : Does Host.clock m m.time m := by
  rintro _ ⟨_, _, _, rfl⟩
  exact ⟨rfl, _, _, _, rfl⟩

theorem does_logAll (records : List Record) : Does (Host.logAll records) m () m := by
  induction records with
  | nil => exact .pure m ()
  | cons record records ih => exact (m.does_log record).bind ih

/-- Variables are asked for one by one. -/
theorem does_environment (names : List Text) :
    Does (Host.environment names) m
      (fun name => if name ∈ names then m.environment.lookup name else none) m := by
  have hfound : Does (names.mapM fun name => do return (name, ← Host.lookup name)) m
      (names.map fun name => (name, m.environment.lookup name)) m := by
    induction names with
    | nil => exact .pure m []
    | cons name names ih =>
      have hone : Does (do return (name, ← Host.lookup name)) m
          (name, m.environment.lookup name) m := (m.does_lookup name).bind (.pure m _)
      rw [List.mapM_cons]
      exact hone.bind (ih.bind (.pure m _))
  have hvalue : (fun name => ((names.map fun name => (name, m.environment.lookup name)).lookup
      name).join) = fun name => if name ∈ names then m.environment.lookup name else none := by
    funext name
    by_cases h : name ∈ names
    · rw [List.lookup_graph _ h, if_pos h]
      rfl
    · have hnone : (names.map fun name => (name, m.environment.lookup name)).lookup name = none :=
        List.lookup_eq_none_iff.mpr (by grind)
      rw [if_neg h, hnone]
      rfl
  rw [← hvalue]
  exact hfound.bind (.pure m _)

end Machine

end SolidScript
