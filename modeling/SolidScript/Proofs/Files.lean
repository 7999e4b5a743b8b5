import SolidScript.Files
import SolidScript.Proofs.Host.Machine

/-!
# Files on a machine

What reading and writing models, scripts and settings does on a machine. Reading changes nothing
(`does_readText`, `does_loadModel`, `does_loadSettings`), and writing changes the disk alone
(`does_writeScript_ok`) or, where it fails, nothing (`does_writeScript_error`).
-/

namespace SolidScript

open Machine

namespace Machine

variable (m : Machine)

/-- The text that a file holds. -/
def textIn (file : Path) : Except Fault Text :=
  ((m.disk.read m.here file).mapError (.access file)).bind fun bytes =>
    match Utf8.decode? bytes with
    | none => .error (.access file .notText)
    | some t => .ok t

/-- The model that a file holds. -/
def modelIn (file : Path) : Except Fault Node :=
  (m.textIn file).bind fun t => (Node.parse t).mapError .document

/-- The settings that a file holds. -/
def settingsIn (file : Path) : Except Fault Settings :=
  (m.textIn file).bind fun t => (Settings.parse t).mapError (.settingsFile file)

/-- The value of a variable, if it is present. -/
def valueOf : Environment := fun name => m.environment.lookup name

/-- The settings after a look at the variables, if none of these is at fault. -/
def overridden (settings : Settings) : Except Fault Settings :=
  match settings.override m.valueOf with
  | (settings, none) => .ok settings
  | (_, some bad) => .error (.badVariable bad)

end Machine

namespace Files

variable (m : Machine)

theorem does_accessing {α : Type} {m n : Machine} {ask : StateM Machine (Except OsError α)}
    {r : Except OsError α} (file : Path) (h : Does ask m r n) :
    Does (accessing file ask).run m (r.mapError (.access file)) n := by
  refine (Does.lift h).bind_ok ?_
  cases r with
  | ok a => exact .pure_ok n a
  | error cause => exact .throw n _

theorem does_readText (file : Path) : Does (readText file).run m (m.textIn file) m := by
  refine (does_accessing file (m.does_readFile file)).bind_asked fun bytes => ?_
  cases Utf8.decode? bytes with
  | none => exact .throw m _
  | some t => exact .pure_ok m t

theorem does_loadModel (file : Path) : Does (loadModel file).run m (m.modelIn file) m := by
  refine (does_readText m file).bind_asked fun t => ?_
  cases Node.parse t with
  | error cause => exact .throw m _
  | ok model => exact (Does.lift (m.does_log _)).bind_ok (.pure_ok m model)

theorem does_loadSettings (file : Path) :
    Does (loadSettings file).run m (m.settingsIn file) m := by
  refine (does_readText m file).bind_asked fun t => ?_
  cases Settings.parse t with
  | error cause => exact .throw m _
  | ok settings => exact (Does.lift (m.does_log _)).bind_ok (.pure_ok m settings)

/-! ## Scripts -/

theorem does_renderModel (model : Node) (settings : Settings) :
    Does (renderModel model settings) m (model.render settings) m :=
  (m.does_logAll _).bind (.pure m _)

theorem does_printModel (model : Node) (settings : Settings) :
    Does (printModel model settings) m ()
      { m with output := m.output ++ (model.render settings).line } :=
  (does_renderModel m model settings).bind (m.does_print _)

variable {m} {file : Path} {disk : Disk} {cause : OsError} {script : Text}

theorem does_writeScript_ok
    (h : m.disk.write m.here file (Utf8.encode script.line) = .ok disk) :
    Does (writeScript script file).run m (.ok ()) { m with disk } :=
  (does_accessing file (does_writeFile_ok h)).bind_ok (.lift (does_log _ _))

theorem does_writeScript_error
    (h : m.disk.write m.here file (Utf8.encode script.line) = .error cause) :
    Does (writeScript script file).run m (.error (.access file cause)) m :=
  (does_accessing file (does_writeFile_error h)).bind_error

theorem does_exportModel {model : Node} {settings : Settings} {r : Except Fault Unit} {n : Machine}
    (h : Does (writeScript (model.render settings) file).run m r n) :
    Does (exportModel model file settings).run m r n :=
  (Does.lift (does_renderModel m model settings)).bind_ok h

/-! ## Settings -/

theorem override_congr (settings : Settings) {environment environment' : Environment}
    (hresolution : environment Settings.resolutionVariable
      = environment' Settings.resolutionVariable)
    (hconvexity : environment Settings.convexityVariable
      = environment' Settings.convexityVariable) :
    settings.override environment = settings.override environment' := by
  rw [Settings.override, Settings.override, hresolution, hconvexity]

variable (m)

theorem does_override (settings : Settings) :
    Does (override settings) m ((settings.override m.valueOf).1,
      (settings.override m.valueOf).2.map .badVariable) m := by
  have hasked : settings.override (fun name =>
      if name ∈ [Settings.resolutionVariable, Settings.convexityVariable] then
        m.environment.lookup name else none) = settings.override m.valueOf :=
    override_congr settings (if_pos List.mem_cons_self)
      (if_pos (List.mem_cons_of_mem _ List.mem_cons_self))
  refine (m.does_environment _).bind ?_
  dsimp only
  rw [hasked]
  exact .pure m _

theorem does_overridden (settings : Settings) :
    Does (overridden settings).run m (m.overridden settings) m := by
  refine (Does.lift (does_override m settings)).bind_ok ?_
  rw [Machine.overridden]
  obtain ⟨settings, _ | bad⟩ := settings.override m.valueOf
  · exact .pure_ok m settings
  · exact .throw m _

end Files

end SolidScript
