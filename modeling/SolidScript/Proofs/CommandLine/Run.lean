import SolidScript.CommandLine.Run
import SolidScript.Proofs.Files

/-!
# Commands on a machine

A command starts from the settings of a file under the variables, or from the fault of one of these
(`does_settings`). A run does what its command does, and its status says how that ended
(`does_run`). The fault that ends a command badly is the last thing that a run tells
(`run_of_error`).
-/

namespace SolidScript.CommandLine

open Machine

variable (m : Machine)

theorem does_within {α : Type} {m n : Machine} {step : ExceptT Fault (StateM Machine) α}
    {r : Except Fault α} (context : Option Text) (h : Does step.run m r n) :
    Does (within context step).run m (r.mapError (⟨context, ·⟩)) n := by
  cases r with
  | ok a => exact h.bind (.pure n _)
  | error fault => exact h.bind (.pure n _)

theorem does_colors : Does colors m (Paint.isForced m.valueOf) m := by
  have hasked : Paint.isForced (fun name =>
      if name ∈ ["CLICOLOR_FORCE".toList] then m.environment.lookup name else none)
      = Paint.isForced m.valueOf := by
    rw [Paint.isForced, Paint.isForced, if_pos List.mem_cons_self]
    rfl
  rw [← hasked]
  exact (m.does_environment _).bind (.pure m _)

theorem does_startLogger (sources : List Text) (verbose : Bool) :
    Does (startLogger sources verbose) m () m :=
  (m.does_environment _).bind ((m.does_report _).bind (m.does_setLogger _))

/-! ## What a command starts from -/

/-- The file that is consulted: the one that is named, or else the usual one, if it is there. -/
def consulted (file : Option Path) : Option Path :=
  file.or (if m.disk.exists? m.here Files.usualSettings then some Files.usualSettings else none)

/-- What was being done when a file was at fault. -/
def fileContext (file : Option Path) : Text :=
  match file with
  | some path => "Failed to load config: ".toList ++ path.display
  | none => "Failed to load configuration".toList

/-- What was being done when a variable was at fault, if that is told. -/
def variableContext (file : Option Path) : Option Text :=
  if file.isSome then none else some "Failed to load configuration".toList

/-- What the consulted file sets. -/
def ofFile (file : Option Path) : Except Fault Settings :=
  match consulted m file with
  | none => .ok {}
  | some path => m.settingsIn path

/-- What a command starts from. -/
def loaded (file : Option Path) : Except Failure Settings :=
  ((ofFile m file).mapError (⟨some (fileContext file), ·⟩)).bind fun s =>
    (m.overridden s).mapError (⟨variableContext file, ·⟩)

theorem mapError_bind {α β ε ε' : Type} (r : Except ε α) (f : α → Except ε β) (g : ε → ε') :
    (r.bind f).mapError g = (r.mapError g).bind fun a => (f a).mapError g := by
  cases r <;> rfl

theorem does_effectiveSettings :
    Does Files.effectiveSettings.run m ((ofFile m none).bind m.overridden) m := by
  refine (Does.lift (m.does_exists? Files.usualSettings)).bind_ok ?_
  rw [ofFile, consulted, Option.none_or]
  cases m.disk.exists? m.here Files.usualSettings with
  | false => exact Files.does_overridden m {}
  | true => exact (Files.does_loadSettings m _).bind_asked (Files.does_overridden m)

theorem does_settings (file : Option Path) : Does (settings file).run m (loaded m file) m := by
  cases file with
  | some path =>
    exact (does_within (some (fileContext (some path)))
      (Files.does_loadSettings m path)).bind_asked fun s =>
        does_within none (Files.does_overridden m s)
  | none =>
    -- faults of the file and faults of the variables are told under one heading here
    have hwithin := does_within (some (fileContext none)) (does_effectiveSettings m)
    rw [mapError_bind] at hwithin
    exact hwithin

/-! ## Runs -/

/-- The exit status of a command. -/
def status : Except Failure Unit → Nat
  | .ok () => 0
  | .error _ => 1

variable {m} {n : Machine} {arguments : List Bytes} {invocation : Invocation}

theorem run_of_parse? (hparse : Arguments.parse? arguments = some invocation) :
    (run arguments : StateM Machine Nat) = do
      startLogger ["scadkit".toList] invocation.verbose
      match ← (carryOut invocation).run with
      | .ok () => return 0
      | .error failure =>
        Host.report (Report.error (← colors) failure.message)
        return 1 := by
  unfold run
  cases hcase : Arguments.parse? arguments with
  | none => cases hcase.symm.trans hparse
  | some found =>
    cases hcase.symm.trans hparse
    rfl

theorem does_run {r : Except Failure Unit}
    (hparse : Arguments.parse? arguments = some invocation)
    (h : Does (carryOut invocation).run m r n) : Does (run arguments) m (status r) n := by
  rw [run_of_parse? hparse]
  refine (does_startLogger m _ _).bind (h.bind ?_)
  cases r with
  | ok _ => exact .pure n 0
  | error failure => exact (does_colors n).bind ((n.does_report _).bind (.pure n 1))

/-- The fault that ends a command is told at the end. -/
theorem run_of_error {failure : Failure}
    (hparse : Arguments.parse? arguments = some invocation)
    (h : Does (carryOut invocation).run m (.error failure) n) :
    ∃ told, (m.after (run arguments)).errors
      = told ++ Report.error (Paint.isForced n.valueOf) failure.message := by
  have hstart := does_startLogger m ["scadkit".toList] invocation.verbose
  obtain ⟨hanswer, hafter⟩ := h _ hstart.alike
  generalize hend : (m.after (startLogger ["scadkit".toList] invocation.verbose)).after
    (carryOut invocation).run = ended at hafter
  have hcolors : ended.answer colors = Paint.isForced n.valueOf := (does_colors n ended hafter).1
  have hlast : m.after (run arguments)
      = ended.after (Host.report (Report.error (ended.answer colors) failure.message)) := by
    rw [run_of_parse? hparse, after_bind, after_bind, hend, hanswer]
    rfl
  rw [hlast, hcolors]
  exact ⟨ended.errors, rfl⟩

end SolidScript.CommandLine
