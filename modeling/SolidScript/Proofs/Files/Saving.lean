import SolidScript.Proofs.Document.Reload

/-!
# Saving models

A model is refused for its own sake exactly if one of its mesh files has a path that is no text, be
it ever so deep in the model (`Node.toJson?_eq_none_iff`), and this shows before the host is asked
for anything. Any other model has a text, and then it is only the file that can stand in the way.

The main statement is `saves_saveModel`.
-/

namespace SolidScript

/-! ## Models without a text -/

namespace Node

variable (m : Node)

theorem toJsonAll?_eq_none_iff (cs : List Node) :
    toJsonAll? cs = none ↔ ∃ c ∈ cs, c.toJson? = none := by
  induction cs with
  | nil => simp [toJsonAll?]
  | cons c cs ih =>
    rw [toJsonAll?_cons, List.exists_mem_cons_iff, ← ih]
    cases c.toJson? <;> cases toJsonAll? cs <;> simp

/-- A model has no value if it is a mesh file whose path is no text, or if a model directly below it
has none. -/
theorem toJson?_eq_none_iff_of_children :
    m.toJson? = none ↔ (∃ file, m = mesh file ∧ file.toText? = none)
      ∨ ∃ c ∈ m.children, c.toJson? = none := by
  cases m with
  | list cs | union cs | intersection cs =>
    rw [toJson?, Option.map_eq_none_iff, toJsonAll?_eq_none_iff]
    simp [children]
  | difference parent cs =>
    rw [toJson?_difference, children, List.exists_mem_cons_iff, ← toJsonAll?_eq_none_iff]
    cases parent.toJson? <;> cases toJsonAll? cs <;> simp
  | transform op content => simp [toJson?, children]
  | _ => simp [toJson?, children]

theorem toJson?_eq_none_iff :
    m.toJson? = none ↔ ∃ file, mesh file ∈ m.parts ∧ file.toText? = none := by
  induction m using induction with
  | step m ih =>
    rw [toJson?_eq_none_iff_of_children, parts_eq]
    simp only [List.mem_cons, List.mem_flatMap, or_and_right, exists_or]
    refine or_congr (exists_congr fun file => and_congr_left fun _ => eq_comm) ?_
    constructor
    · rintro ⟨c, hc, h⟩
      obtain ⟨file, hfile, hnone⟩ := (ih c hc).mp h
      exact ⟨file, ⟨c, hc, hfile⟩, hnone⟩
    · rintro ⟨file, ⟨c, hc, hfile⟩, hnone⟩
      exact ⟨c, hc, (ih c hc).mpr ⟨file, hfile, hnone⟩⟩

theorem print?_eq_none_iff (layout : Json.Layout) :
    m.print? layout = none ↔ ∃ file, mesh file ∈ m.parts ∧ file.toText? = none := by
  rw [print?, Option.map_eq_none_iff, toJson?_eq_none_iff]

end Node

/-! ## Saving -/

/-- Faults that documents are to blame for, and neither files nor programs. -/
def Fault.IsOfDocument : Fault → Prop
  | .document _ | .unwritable => True
  | _ => False

namespace Files

/-- A model without a text is refused by itself. Nothing is asked of the host. -/
theorem saveModel_eq_throw {m : Type → Type} [Monad m] [Host m] {model : Node}
    (h : model.print? Json.pretty = none) (target : Path) :
    saveModel (m := m) model target = throw .unwritable := by
  rw [saveModel, h]

section Printed

variable {machine : Machine} {model : Node} {t : Text} {target : Path}
  (h : model.print? Json.pretty = some t)

include h

/-- Where the disk lets the target be written, the text ends up there. -/
theorem saveModel_of_write_ok {disk : Disk}
    (hwrite : machine.disk.write machine.here target (Utf8.encode t) = .ok disk) :
    machine.answer (saveModel model target).run = .ok ()
      ∧ (machine.after (saveModel model target).run).disk = disk
      ∧ (machine.after (saveModel model target).run).disk.read machine.here target
        = .ok (Utf8.encode t) := by
  have hdoes := does_saveModel_ok h hwrite
  obtain ⟨_, _, _, hafter⟩ := hdoes.alike
  rw [hafter]
  exact ⟨hdoes.answer_eq, rfl, Disk.read_write hwrite⟩

/-- Where it does not, it says why, and nothing is written. -/
theorem saveModel_of_write_error {cause : OsError}
    (hwrite : machine.disk.write machine.here target (Utf8.encode t) = .error cause) :
    machine.answer (saveModel model target).run = .error (.access target cause)
      ∧ (machine.after (saveModel model target).run).disk = machine.disk := by
  have hdoes := does_saveModel_error h hwrite
  obtain ⟨_, _, _, hafter⟩ := hdoes.alike
  rw [hafter]
  exact ⟨hdoes.answer_eq, rfl⟩

/-- No document is to blame in either case. -/
theorem not_isOfDocument_of_saveModel {fault : Fault}
    (hfault : machine.answer (saveModel model target).run = .error fault) :
    ¬fault.IsOfDocument := by
  intro hdocument
  cases hwrite : machine.disk.write machine.here target (Utf8.encode t) with
  | ok disk => cases (saveModel_of_write_ok h hwrite).1.symm.trans hfault
  | error cause =>
    cases (saveModel_of_write_error h hwrite).1.symm.trans hfault
    cases hdocument

end Printed

/-- What becomes of a model that is to be saved. -/
structure Saves (machine : Machine) (model : Node) (target : Path) : Prop where
  /-- A document is blamed exactly if there is a mesh file in the model whose path is no text. -/
  blamed_iff : (∃ fault, machine.answer (saveModel model target).run = .error fault
      ∧ fault.IsOfDocument)
    ↔ ∃ file, .mesh file ∈ model.parts ∧ file.toText? = none
  /-- Then the machine stays as it is, and so do its files, the target included. -/
  refused : ∀ file, .mesh file ∈ model.parts → file.toText? = none →
    machine.answer (saveModel model target).run = .error .unwritable
      ∧ machine.after (saveModel model target).run = machine
  /-- If there is no such mesh file, the disk alone decides. Where it lets the target be written,
  the target holds the whole text and nothing else. -/
  saved : (∀ file, .mesh file ∈ model.parts → file.toText? ≠ none) →
    ∃ t, model.print? Json.pretty = some t
      ∧ ∀ disk, machine.disk.write machine.here target (Utf8.encode t) = .ok disk →
        machine.answer (saveModel model target).run = .ok ()
          ∧ (machine.after (saveModel model target).run).disk = disk
          ∧ (machine.after (saveModel model target).run).disk.read machine.here target
            = .ok (Utf8.encode t)
  /-- Where it does not, the target is at fault, for the reason that the disk gives. The disk stays
  as it is. -/
  failed : (∀ file, .mesh file ∈ model.parts → file.toText? ≠ none) →
    ∃ t, model.print? Json.pretty = some t
      ∧ ∀ cause, machine.disk.write machine.here target (Utf8.encode t) = .error cause →
        machine.answer (saveModel model target).run = .error (.access target cause)
          ∧ (machine.after (saveModel model target).run).disk = machine.disk

/-- **Saving refuses exactly what has no text**, and does so before it touches the disk, whether or
not the target could be written. -/
theorem saves_saveModel (machine : Machine) (model : Node) (target : Path) :
    Saves machine model target := by
  have hnone := model.print?_eq_none_iff Json.pretty
  cases hprint : model.print? Json.pretty with
  | none =>
    have hpath := hnone.mp hprint
    have hdoes : Does (saveModel model target).run machine (.error .unwritable) machine := by
      rw [saveModel_eq_throw hprint]
      exact .throw machine _
    have hnot : ¬∀ file, .mesh file ∈ model.parts → file.toText? ≠ none := by
      obtain ⟨file, hfile, hno⟩ := hpath
      exact fun h => h file hfile hno
    refine ⟨⟨fun _ => hpath, fun _ => ⟨_, hdoes.answer_eq, trivial⟩⟩, fun _ _ _ => ?_,
      fun h => absurd h hnot, fun h => absurd h hnot⟩
    refine ⟨hdoes.answer_eq, ?_⟩
    rw [saveModel_eq_throw hprint]
    rfl
  | some t =>
    have hall : ¬∃ file, .mesh file ∈ model.parts ∧ file.toText? = none := by
      rw [← hnone, hprint]
      exact Option.some_ne_none t
    refine ⟨⟨?_, fun h => absurd h hall⟩, fun file hfile hno => absurd ⟨file, hfile, hno⟩ hall,
      fun _ => ⟨t, hprint, fun _ => saveModel_of_write_ok hprint⟩,
      fun _ => ⟨t, hprint, fun _ => saveModel_of_write_error hprint⟩⟩
    rintro ⟨fault, hfault, hdocument⟩
    exact absurd hdocument (not_isOfDocument_of_saveModel hprint hfault)

/-- A model in the midst of which there is a path that is no text goes nowhere, not even into a file
that is there. Without that path it takes the place of what the file held, and a directory is not
written over. -/
theorem saveModel_over_file :
    let machine : Machine := { disk := ⟨[([[111]], .file [1, 2, 3]), ([[100]], .directory)]⟩ }
    let model (file : Path) : Node := .difference (.sphere .zero)
      [.transform (.mirror ⟨.zero, .zero, .zero⟩) (.union [.list [.mesh file]])]
    let target : Path := ⟨[111]⟩
    let directory : Path := ⟨[100]⟩
    let broken := model ⟨[0xFF]⟩
    let whole := model (.ofString "a.stl")
    (machine.answer (saveModel broken target).run = .error .unwritable
        ∧ (machine.after (saveModel broken target).run).disk.read machine.here target
          = .ok [1, 2, 3])
      ∧ (∃ t, whole.print? Json.pretty = some t
        ∧ machine.answer (saveModel whole target).run = .ok ()
        ∧ (machine.after (saveModel whole target).run).disk.read machine.here target
          = .ok (Utf8.encode t))
      ∧ machine.answer (saveModel whole directory).run
        = .error (.access directory .isADirectory) := by
  intro machine model target directory broken whole
  have hmesh (file : Path) : .mesh file ∈ (model file).parts := by
    simp [model, Node.parts, Node.partsAll]
  obtain ⟨hanswer, hafter⟩ :=
    (saves_saveModel machine broken target).refused ⟨[0xFF]⟩ (hmesh _) (by decide)
  have hpaths : ∀ file, .mesh file ∈ whole.parts → file.toText? ≠ none := by
    intro file hfile
    have hsame : file = .ofString "a.stl" := by
      simpa [whole, model, Node.parts, Node.partsAll] using hfile
    rw [hsame]
    decide +kernel
  obtain ⟨t, hprint, hsaved⟩ := (saves_saveModel machine whole target).saved hpaths
  have hplace : machine.disk.locateFile machine.here target = .ok [[111]] := by decide
  obtain ⟨hok, -, hread⟩ := hsaved _ (Disk.write_eq_ok_iff.mpr ⟨_, hplace, rfl⟩)
  obtain ⟨u, -, hfailed⟩ := (saves_saveModel machine whole directory).failed hpaths
  have hdirectory : machine.disk.locateFile machine.here directory = .error .isADirectory := by
    decide
  refine ⟨⟨hanswer, ?_⟩, ⟨t, hprint, hok, hread⟩, (hfailed .isADirectory ?_).1⟩
  · rw [hafter]
    decide
  · rw [Disk.write, hdirectory]
    rfl

end Files

end SolidScript
