import Mathlib.Data.List.DropRight
import SolidScript.Host.Disk
import SolidScript.Proofs.Path.Spelling

/-!
# Disks, their laws

What is put at a place is found there, and nothing else moves (`find?_put_self`, `find?_put_of_ne`).
A file that has been written under a path holds what was written when it is read under that path
(`read_write`). A disk that `Extends` another has everything that the other has, so what could be
read there can be read here (`Extends.read_eq`); making a file where there was nothing extends a
disk (`extends_write`).
-/

namespace SolidScript.Disk

variable {disk disk' : Disk} {here place : Location} {path : Path} {content : Bytes}

/-! ## Places -/

theorem find?_put_self (disk : Disk) (hne : place ≠ []) (entry : Entry) :
    (disk.put place entry).find? place = some entry := by
  rw [find?, if_neg hne, put, List.lookup_cons_self]

theorem lookup_filter_ne {entries : List (Location × Entry)} {other : Location}
    (h : other ≠ place) :
    (entries.filter fun e => e.1 ≠ place).lookup other = entries.lookup other := by
  induction entries with
  | nil => rfl
  | cons e entries ih =>
    by_cases he : e.1 = place
    · rw [List.filter_cons_of_neg (by simpa using he), ih, List.lookup_cons,
        beq_false_of_ne (he ▸ h)]
    · rw [List.filter_cons_of_pos (by simpa using he), List.lookup_cons, List.lookup_cons, ih]

theorem find?_put_of_ne (disk : Disk) {other : Location} (h : other ≠ place) (entry : Entry) :
    (disk.put place entry).find? other = disk.find? other := by
  rw [find?, find?, put, List.lookup_cons, beq_false_of_ne h, lookup_filter_ne h]

/-- The second disk has everything that the first one has. -/
def Extends (disk disk' : Disk) : Prop :=
  ∀ place entry, disk.find? place = some entry → disk'.find? place = some entry

theorem Extends.refl (disk : Disk) : disk.Extends disk := fun _ _ h => h

theorem extends_put (h : disk.find? place = none) (entry : Entry) :
    disk.Extends (disk.put place entry) := by
  intro other found hfound
  have hne : other ≠ place := by
    rintro rfl
    rw [h] at hfound
    cases hfound
  rwa [find?_put_of_ne disk hne]

/-! ## Following a path -/

/-- A path is followed alike on every disk that has the same directories and maybe more, unless it
ends in slashes behind a name that is not there. -/
theorem follow_of_directories
    (h : ∀ other, disk.find? other = some .directory → disk'.find? other = some .directory)
    {pieces : List Bytes} (hfollow : disk.follow here pieces = .ok place)
    (hend : disk.find? place = none → pieces.getLast? ≠ some []) :
    disk'.follow here pieces = .ok place := by
  induction pieces generalizing here with
  | nil => exact hfollow
  | cons piece pieces ih =>
    have hend' : disk.find? place = none → pieces.getLast? ≠ some [] := by
      intro hnone hlast
      refine hend hnone ?_
      rw [List.getLast?_cons, hlast]
      rfl
    rw [follow] at hfollow
    cases hhere : disk.find? here with
    | none =>
      rw [hhere] at hfollow
      dsimp only at hfollow
      split at hfollow
      next hall =>
        cases hfollow
        refine absurd ?_ (hend hhere)
        rw [List.getLast?_eq_some_getLast (List.cons_ne_nil piece pieces)]
        simpa using List.all_eq_true.mp hall _ (List.getLast_mem (List.cons_ne_nil piece pieces))
      next => cases hfollow
    | some found =>
      rw [hhere] at hfollow
      cases found with
      | file _ => cases hfollow
      | directory =>
        rw [follow, h here hhere]
        dsimp only at hfollow ⊢
        cases hpart : Path.component? piece with
        | none =>
          rw [hpart] at hfollow
          exact ih hfollow hend'
        | some part =>
          rw [hpart] at hfollow
          cases part with
          | name name =>
            dsimp only at hfollow ⊢
            split at hfollow
            next => cases hfollow
            next hlength =>
              rw [if_neg hlength]
              exact ih hfollow hend'
          | up => exact ih hfollow hend'
          | here => exact ih hfollow hend'
          | root => exact ih hfollow hend'

theorem locate_of_directories
    (h : ∀ other, disk.find? other = some .directory → disk'.find? other = some .directory)
    (hlocate : disk.locate here path = .ok place)
    (hend : disk.find? place = none → path.bytes.getLast? ≠ some Path.slash) :
    disk'.locate here path = .ok place := by
  rw [locate] at hlocate ⊢
  split at hlocate
  next => cases hlocate
  split at hlocate
  next => cases hlocate
  split at hlocate
  next => cases hlocate
  next hzero hne hlength =>
    rw [if_neg hzero, if_neg hne, if_neg hlength]
    refine follow_of_directories h hlocate fun hnone hlast => hend hnone ?_
    exact Path.getLast?_of_pieces hne hlast

/-! ## Reading -/

/-- What could be read can be read on every disk that has more. -/
theorem Extends.read_eq (h : disk.Extends disk') (hread : disk.read here path = .ok content) :
    disk'.read here path = .ok content := by
  rw [read] at hread
  cases hlocate : disk.locate here path with
  | error e =>
    rw [hlocate] at hread
    cases hread
  | ok place =>
    rw [hlocate] at hread
    dsimp only at hread
    cases hfind : disk.find? place with
    | none =>
      rw [hfind] at hread
      cases hread
    | some entry =>
      have hlocate' : disk'.locate here path = .ok place :=
        locate_of_directories (fun other => h other .directory) hlocate (by simp [hfind])
      rw [hfind] at hread
      rw [read, hlocate']
      dsimp only
      rw [h place entry hfind]
      exact hread

/-- What can be read is there. -/
theorem exists?_of_read (h : disk.read here path = .ok content) :
    disk.exists? here path = true := by
  rw [read] at h
  rw [exists?]
  cases hlocate : disk.locate here path with
  | error e =>
    rw [hlocate] at h
    cases h
  | ok place =>
    rw [hlocate] at h
    dsimp only at h ⊢
    cases hfind : disk.find? place with
    | none =>
      rw [hfind] at h
      cases h
    | some entry => rfl

/-! ## Writing -/

/-- A file can be put where a path leads to if no directory is there and no slash ends the path. -/
theorem locateFile_eq_ok_iff :
    disk.locateFile here path = .ok place ↔
      disk.locate here path = .ok place ∧ disk.find? place ≠ some .directory
        ∧ withoutSlash path = path := by
  rw [locateFile.eq_def]
  split
  next hlocate =>
    rw [hlocate]
    split <;> simp
  next hlocate => simp [hlocate]
  next found hlocate =>
    rw [hlocate]
    constructor
    · intro h
      split at h
      next => cases h
      next hdirectory =>
        split at h
        next => cases h
        next hslash =>
          cases h
          exact ⟨rfl, hdirectory, not_not.mp hslash⟩
    · rintro ⟨⟨⟩, hdirectory, hslash⟩
      rw [if_neg hdirectory, if_neg (not_not.mpr hslash)]

theorem write_eq_ok_iff :
    disk.write here path content = .ok disk' ↔
      ∃ place, disk.locateFile here path = .ok place ∧ disk' = disk.put place (.file content) := by
  rw [write]
  cases disk.locateFile here path with
  | error e => simp [Except.map]
  | ok place => simp [Except.map, eq_comm]

theorem getLast?_ne_slash (h : withoutSlash path = path) :
    path.bytes.getLast? ≠ some Path.slash := by
  intro hlast
  have hbytes : path.bytes.rdropWhile (fun b => b = Path.slash) = path.bytes :=
    congrArg Path.bytes h
  rw [List.rdropWhile_eq_self_iff] at hbytes
  obtain ⟨bs, hbs⟩ := List.getLast?_eq_some_iff.mp hlast
  have hne : path.bytes ≠ [] := by simp [hbs]
  exact hbytes hne (by simp [hbs])

/-- A file that has been written holds what was written, whatever it held before. -/
theorem read_write (h : disk.write here path content = .ok disk') :
    disk'.read here path = .ok content := by
  obtain ⟨place, hlocateFile, rfl⟩ := write_eq_ok_iff.mp h
  obtain ⟨hlocate, hdirectory, hslash⟩ := locateFile_eq_ok_iff.mp hlocateFile
  have hne : place ≠ [] := by
    rintro rfl
    exact hdirectory rfl
  have hlocate' : (disk.put place (.file content)).locate here path = .ok place := by
    refine locate_of_directories (fun other hother => ?_) hlocate fun _ => getLast?_ne_slash hslash
    have hplace : other ≠ place := by
      rintro rfl
      exact hdirectory hother
    rwa [find?_put_of_ne disk hplace]
  rw [read, hlocate']
  dsimp only
  rw [find?_put_self disk hne]

/-- Making a file where there was nothing takes nothing away. -/
theorem extends_write (h : disk.write here path content = .ok disk')
    (hnew : disk.exists? here path = false) : disk.Extends disk' := by
  obtain ⟨place, hlocateFile, rfl⟩ := write_eq_ok_iff.mp h
  rw [exists?, (locateFile_eq_ok_iff.mp hlocateFile).1] at hnew
  exact extends_put (by simpa using hnew) _

end SolidScript.Disk
