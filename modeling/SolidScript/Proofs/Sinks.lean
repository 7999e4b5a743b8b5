import SolidScript.Clipboard
import SolidScript.Editor
import SolidScript.Proofs.Files

/-!
# Clipboard and editor on a machine

What copying a text and opening a script do to a machine, whatever its programs are like. Copying
starts at most one program, which is given the text to read (`does_copy`, `mem_copying`). Opening
puts the script into a file where there was nothing and may start a program on it
(`does_openScript`). Both leave alone what stands on the disk and on the output stream
(`Machine.Preserves`).
-/

namespace SolidScript

open Machine

/-- What stands on the disk and on the output stream is left alone. -/
structure Machine.Preserves (m n : Machine) : Prop where
  output : n.output = m.output
  currentDir : n.currentDir = m.currentDir
  disk : m.disk.Extends n.disk

theorem Machine.Preserves.read_eq {m n : Machine} (h : Preserves m n) {path : Path}
    {content : Bytes} (hread : m.disk.read m.here path = .ok content) :
    n.disk.read n.here path = .ok content := by
  rw [Machine.here, h.currentDir]
  exact h.disk.read_eq hread

theorem Machine.Preserves.of_alike {m n o : Machine} (h : Preserves m n) (halike : Alike o n) :
    Preserves m o := by
  obtain ⟨_, _, _, rfl⟩ := halike
  exact ⟨h.output, h.currentDir, h.disk⟩

namespace Clipboard

/-- A copier that is given a text to read. -/
def Copier.started (copier : Copier) (t : Text) : Started :=
  ⟨copier.program, copier.arguments.map Utf8.encode, some (Utf8.encode t)⟩

/-- How copying with the first copier that is there ends, and what is started for it. -/
def copying (m : Machine) (t : Text) : List Copier → Except Fault Unit × List Started
  | [] => (.error .noClipboard, [])
  | copier :: others =>
    match m.tool copier.program with
    | .refuses .notFound => copying m t others
    | .refuses cause => (.error (.launch copier.program cause), [])
    | .breaksOff cause => (.error (.launch copier.program cause), [copier.started t])
    | .ends status =>
      (if status.isSuccess then .ok () else .error (.exit copier.program status),
        [copier.started t])

theorem does_copyWith (m : Machine) (t : Text) (copiers : List Copier) :
    Does (copyWith t copiers).run m (copying m t copiers).1
      { m with started := m.started ++ (copying m t copiers).2 } := by
  induction copiers with
  | nil =>
    rw [copying, List.append_nil]
    exact .throw m _
  | cons copier others ih =>
    have hfeed := Does.lift (ε := Fault)
      (m.does_feed copier.program copier.arguments (Utf8.encode t))
    rw [Machine.feed] at hfeed
    rw [copying]
    cases htool : m.tool copier.program with
    | refuses cause =>
      rw [htool] at hfeed
      cases cause with
      | notFound => exact hfeed.bind_ok ih
      | _ =>
        rw [List.append_nil]
        exact hfeed.bind_ok (.throw m _)
    | breaksOff cause =>
      rw [htool] at hfeed
      exact hfeed.bind_ok (.throw _ _)
    | ends status =>
      rw [htool] at hfeed
      refine hfeed.bind_ok ?_
      dsimp only
      split
      next => exact .lift (does_log _ _)
      next => exact .throw _ _

theorem does_copy (m : Machine) (t : Text) :
    Does (copy t).run m (copying m t copiers).1
      { m with started := m.started ++ (copying m t copiers).2 } := does_copyWith m t copiers

variable {m : Machine} {t : Text} {copiers : List Copier}

/-- What is started is a copier with its own arguments, and it is given the text. -/
theorem mem_copying {tool : Started} (h : tool ∈ (copying m t copiers).2) :
    ∃ copier ∈ copiers, tool = copier.started t := by
  induction copiers with
  | nil => cases h
  | cons copier others ih =>
    rw [copying] at h
    cases htool : m.tool copier.program with
    | refuses cause =>
      rw [htool] at h
      cases cause with
      | notFound =>
        obtain ⟨other, hother, heq⟩ := ih h
        exact ⟨other, List.mem_cons_of_mem copier hother, heq⟩
      | _ => cases h
    | breaksOff cause =>
      rw [htool] at h
      exact ⟨copier, List.mem_cons_self, List.mem_singleton.mp h⟩
    | ends status =>
      rw [htool] at h
      exact ⟨copier, List.mem_cons_self, List.mem_singleton.mp h⟩

/-- A text that has been copied has been given to exactly one copier. -/
theorem exists_copying_eq_of_ok (h : (copying m t copiers).1 = .ok ()) :
    ∃ copier ∈ copiers, (copying m t copiers).2 = [copier.started t] := by
  induction copiers with
  | nil => cases h
  | cons copier others ih =>
    rw [copying] at h ⊢
    cases htool : m.tool copier.program with
    | refuses cause =>
      rw [htool] at h
      cases cause with
      | notFound =>
        obtain ⟨other, hother, heq⟩ := ih h
        exact ⟨other, List.mem_cons_of_mem copier hother, heq⟩
      | _ => cases h
    | breaksOff cause =>
      rw [htool] at h
      cases h
    | ends status => exact ⟨copier, List.mem_cons_self, rfl⟩

end Clipboard

namespace Editor

/-- What can come of opening a script on a machine, and the machine after it. -/
inductive Opens (m : Machine) (script : Text) : Except Fault Path → Machine → Prop
  | noFile (fault : Fault) : Opens m script (.error fault) m
  | notStarted {file : Path} {disk : Disk} (fault : Fault) :
      m.disk.exists? m.here file = false →
      m.disk.write m.here file (Utf8.encode script) = .ok disk →
      Opens m script (.error fault) { m with disk }
  | opened {file : Path} {disk : Disk} :
      m.disk.exists? m.here file = false →
      m.disk.write m.here file (Utf8.encode script) = .ok disk →
      Opens m script (.ok file) { m with
        disk
        started := m.started ++ [⟨program (m.valueOf programVariable), [file.bytes], none⟩] }

/-- Starting a program on a file fails, or the program is started. -/
theorem launch_cases (m : Machine) (program : Text) (file : Path) :
    (∃ cause, m.launch program file = (.error cause, m))
      ∨ m.launch program file
        = (.ok (), { m with started := m.started ++ [⟨program, [file.bytes], none⟩] }) := by
  rw [Machine.launch]
  cases m.tool program with
  | refuses cause => exact .inl ⟨cause, rfl⟩
  | _ => exact .inr rfl

theorem does_openScript (m : Machine) (script : Text) :
    ∃ r n, Opens m script r n ∧ Does (openScript script).run m r n := by
  have hprogram := Does.lift (ε := Fault) (m.does_lookup programVariable)
  have hdirectory := Does.lift (ε := Fault) (m.does_lookup directoryVariable)
  have hnew := Files.does_accessing (directory (m.valueOf directoryVariable))
    (m.does_writeNew (directory (m.valueOf directoryVariable)) "scadkit-".toList ".scad".toList
      (Utf8.encode script))
  rcases m.writeNew_cases (directory (m.valueOf directoryVariable)) "scadkit-".toList
    ".scad".toList (Utf8.encode script) with ⟨cause, hcase⟩ | ⟨file, disk, hfresh, hwrite, hcase⟩
  · rw [hcase] at hnew
    exact ⟨_, m, .noFile _, hprogram.bind_ok (hdirectory.bind_ok hnew.bind_error)⟩
  · rw [hcase] at hnew
    have hlaunch := Does.lift (ε := Fault)
      ({ m with disk }.does_launch (program (m.valueOf programVariable)) file)
    rcases launch_cases { m with disk } (program (m.valueOf programVariable)) file with
      ⟨cause, hcase⟩ | hcase
    · rw [hcase] at hlaunch
      exact ⟨_, _, .notStarted _ hfresh hwrite, hprogram.bind_ok (hdirectory.bind_ok
        (hnew.bind_ok (hlaunch.bind_ok (.throw _ _))))⟩
    · rw [hcase] at hlaunch
      exact ⟨_, _, .opened hfresh hwrite, hprogram.bind_ok (hdirectory.bind_ok
        (hnew.bind_ok (hlaunch.bind_ok ((Does.lift (does_log _ _)).bind_ok (.pure_ok _ _)))))⟩

theorem Opens.preserves {m n : Machine} {script : Text} {r : Except Fault Path}
    (h : Opens m script r n) : Preserves m n := by
  cases h with
  | noFile => exact ⟨rfl, rfl, .refl _⟩
  | notStarted _ hfresh hwrite => exact ⟨rfl, rfl, Disk.extends_write hwrite hfresh⟩
  | opened hfresh hwrite => exact ⟨rfl, rfl, Disk.extends_write hwrite hfresh⟩

/-- A program is started on a file if and only if that file is the answer. -/
theorem Opens.started_eq {m n : Machine} {script : Text} {r : Except Fault Path}
    (h : Opens m script r n) : n.started = m.started ++ (r.toOption.map fun file =>
      ⟨program (m.valueOf programVariable), [file.bytes], none⟩).toList := by
  cases h with
  | noFile => exact (List.append_nil _).symm
  | notStarted => exact (List.append_nil _).symm
  | opened => rfl

/-- The file that a program is started on holds the script. -/
theorem Opens.read_eq {m n : Machine} {script : Text} {file : Path}
    (h : Opens m script (.ok file) n) : n.disk.read n.here file = .ok (Utf8.encode script) := by
  cases h with
  | opened _ hwrite => exact Disk.read_write hwrite

end Editor

end SolidScript
