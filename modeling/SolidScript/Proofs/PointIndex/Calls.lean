import SolidScript.Proofs.PointIndex

/-!
# Point indexes under calls

To those who call it, an index is a list of points that is searched from the front: `ActsAsList`
says so of a whole run of calls. `insert` looks a point up before it puts the point in, and
`insertOnce` does not; that is right only because a table in step with the points knows of no free
position.
All that a run needs of either is what one insertion does (`Inserts`), and the rest is said once
for both.

The main statement is `actsAsList_run`.
-/

namespace SolidScript

/-- Numbers that differ in the sign of a zero at most. -/
def Binary64.EqUpToZero (x y : Binary64) : Prop := x = y ∨ x.isZero = true ∧ y.isZero = true

/-- Points that differ in the signs of zeros at most. -/
def Point.EqUpToZero (p q : Point) : Prop :=
  p.x.EqUpToZero q.x ∧ p.y.EqUpToZero q.y ∧ p.z.EqUpToZero q.z

theorem Binary64.EqUpToZero.same {x y : Binary64} (h : x.EqUpToZero y) : x.Same y := by
  rcases h with rfl | ⟨hx, hy⟩
  · exact Or.inr rfl
  · rw [← key_eq_iff, key, key, if_pos hx, if_pos hy]

theorem Point.EqUpToZero.same {p q : Point} (h : p.EqUpToZero q) : p.Same q :=
  ⟨h.1.same, h.2.1.same, h.2.2.same⟩

/-! ## Calls -/

namespace PointIndex

/-- What is asked of a keeper of points. -/
inductive Call where
  /-- The position of a point, which goes to the end if it is not there. -/
  | insert (p : Point)
  /-- The position of a point, if it is there. -/
  | get (p : Point)

/-- A keeper of points, by how it answers in a state and what state that leaves. -/
structure Keeper (σ : Type) where
  insert : σ → Point → Nat × σ
  get? : σ → Point → Option Nat

namespace Keeper

variable {σ τ : Type}

/-- The answer to a call, and the state after it. -/
def answer (keeper : Keeper σ) (s : σ) : Call → Option Nat × σ
  | .insert p => (some (keeper.insert s p).1, (keeper.insert s p).2)
  | .get p => (keeper.get? s p, s)

/-- The answers to several calls, and the state after them. -/
def run (keeper : Keeper σ) (s : σ) : List Call → List (Option Nat) × σ
  | [] => ([], s)
  | call :: calls =>
    let (answer, s) := keeper.answer s call
    let (answers, s) := keeper.run s calls
    (answer :: answers, s)

theorem run_cons (keeper : Keeper σ) (s : σ) (call : Call) (calls : List Call) :
    keeper.run s (call :: calls)
      = ((keeper.answer s call).1 :: (keeper.run (keeper.answer s call).2 calls).1,
        (keeper.run (keeper.answer s call).2 calls).2) := rfl

/-- In related states the keepers answer alike and go on to related states. -/
structure Simulates (keeper : Keeper σ) (other : Keeper τ) (R : σ → τ → Prop) : Prop where
  insert : ∀ {s t} p, R s t →
    (keeper.insert s p).1 = (other.insert t p).1 ∧ R (keeper.insert s p).2 (other.insert t p).2
  get? : ∀ {s t} p, R s t → keeper.get? s p = other.get? t p

namespace Simulates

variable {keeper : Keeper σ} {other : Keeper τ} {R : σ → τ → Prop} {s : σ} {t : τ}

theorem answer (h : keeper.Simulates other R) (hst : R s t) (call : Call) :
    (keeper.answer s call).1 = (other.answer t call).1
      ∧ R (keeper.answer s call).2 (other.answer t call).2 := by
  cases call with
  | insert p => exact ⟨congrArg some (h.insert p hst).1, (h.insert p hst).2⟩
  | get p => exact ⟨h.get? p hst, hst⟩

theorem run (h : keeper.Simulates other R) (hst : R s t) (calls : List Call) :
    (keeper.run s calls).1 = (other.run t calls).1
      ∧ R (keeper.run s calls).2 (other.run t calls).2 := by
  induction calls generalizing s t with
  | nil => exact ⟨rfl, hst⟩
  | cons call calls ih =>
    obtain ⟨hanswer, hnext⟩ := h.answer hst call
    obtain ⟨hanswers, hlast⟩ := ih hnext
    rw [run_cons, run_cons, hanswer, hanswers]
    exact ⟨rfl, hlast⟩

end Simulates

/-- The position of the first point that is the same. -/
def position? (ps : List Point) (p : Point) : Option Nat := ps.findIdx? fun q => q.Same p

/-- A list that is searched from the front. -/
def searched : Keeper (List Point) where
  insert ps p :=
    match position? ps p with
    | some i => (i, ps)
    | none => (ps.length, ps ++ [p])
  get? := position?

/-- An index that is added to in the given way. -/
def indexed (insert : PointIndex → Point → Nat × PointIndex) : Keeper PointIndex where
  insert := insert
  get? := PointIndex.get?

end Keeper

/-! ## Insertion with one look -/

theorem insertOnce_eq (index : PointIndex) (p : Point) :
    index.insertOnce p = ((index.get? p).getD index.size,
      ⟨if (index.get? p).getD index.size = index.size then index.points.push p else index.points,
        index.lookup.insertIfNew p.key index.size⟩) := by
  rw [insertOnce]
  simp only [get?, Std.HashMap.getThenInsertIfNew?_fst, Std.HashMap.getThenInsertIfNew?_snd]
  rfl

variable {index other : PointIndex} {p q r : Point} {i j : Nat}

/-- Being in step is a matter of the points and of what is found in the table. -/
theorem InStep.congr (h : index.InStep) (hpoints : other.points = index.points)
    (hlookup : ∀ k : PointKey, other.lookup[k]? = index.lookup[k]?) : other.InStep := by
  intro k i
  rw [hlookup, hpoints]
  exact h k i

/-- No known position is free, so both insertions do the same. -/
theorem InStep.insertOnce (h : index.InStep) (p : Point) :
    (index.insertOnce p).1 = (index.insert p).1
      ∧ (index.insertOnce p).2.points = (index.insert p).2.points
      ∧ ∀ k : PointKey, (index.insertOnce p).2.lookup[k]? = (index.insert p).2.lookup[k]? := by
  rw [insertOnce_eq]
  rcases insert_cases index p with ⟨i, hp, hr⟩ | ⟨hp, hr⟩
  · have hfree : i ≠ index.size := Nat.ne_of_lt (h.lt_size hp)
    have hmem : p.key ∈ index.lookup := by
      rw [Std.HashMap.mem_iff_isSome_getElem?, show index.lookup[p.key]? = some i from hp]
      rfl
    rw [hr, hp, Option.getD_some, if_neg hfree]
    refine ⟨rfl, rfl, fun k => ?_⟩
    rw [Std.HashMap.getElem?_insertIfNew, if_neg fun hk => hk.2 hmem]
  · have hmem : p.key ∉ index.lookup := by
      rw [Std.HashMap.mem_iff_isSome_getElem?, show index.lookup[p.key]? = none from hp]
      exact Bool.false_ne_true
    rw [hr, hp, Option.getD_none, if_pos rfl]
    refine ⟨rfl, rfl, fun k => ?_⟩
    simp only [Std.HashMap.getElem?_insertIfNew, Std.HashMap.getElem?_insert, hmem, not_false_iff,
      and_true]

/-! ## What one insertion does -/

/-- A known point has its position and changes no point; any other goes to the end. The table stays
in step. -/
structure Inserts (insert : PointIndex → Point → Nat × PointIndex) : Prop where
  known : ∀ {index p i}, index.InStep → index.get? p = some i →
    (insert index p).1 = i ∧ (insert index p).2.points = index.points
  fresh : ∀ {index p}, index.InStep → index.get? p = none →
    (insert index p).1 = index.size ∧ (insert index p).2.points = index.points.push p
  inStep : ∀ {index} p, index.InStep → (insert index p).2.InStep

theorem inserts_insert : Inserts insert where
  known _ hp := by
    rw [insert, hp]
    exact ⟨rfl, rfl⟩
  fresh _ hp := by
    rw [insert, hp]
    exact ⟨rfl, rfl⟩
  inStep p h := h.insert p

theorem inserts_insertOnce : Inserts insertOnce where
  known h hp := by
    rw [(h.insertOnce _).1, (h.insertOnce _).2.1]
    exact inserts_insert.known h hp
  fresh h hp := by
    rw [(h.insertOnce _).1, (h.insertOnce _).2.1]
    exact inserts_insert.fresh h hp
  inStep p h := (h.insert p).congr (h.insertOnce p).2.1 (h.insertOnce p).2.2

/-! ## An index is searched like its list -/

theorem InStep.get?_eq_some_iff_same (h : index.InStep) :
    index.get? p = some i ↔ ∃ q, index.points[i]? = some q ∧ q.Same p := by
  rw [h.get?_eq_some_iff, Option.map_eq_some_iff]
  simp only [Point.key_eq_iff]

/-- Points that are the same as one point have one position. -/
theorem InStep.position_unique (h : index.InStep) (hq : index.points[i]? = some q)
    (hqp : q.Same p) (hr : index.points[j]? = some r) (hrp : r.Same p) : j = i := by
  have hi := h.get?_eq_some_iff_same.mpr ⟨q, hq, hqp⟩
  have hj := h.get?_eq_some_iff_same.mpr ⟨r, hr, hrp⟩
  exact Option.some.inj (hj.symm.trans hi)

theorem InStep.get?_eq_position? (h : index.InStep) (p : Point) :
    index.get? p = Keeper.position? index.points.toList p := by
  symm
  cases hget : index.get? p with
  | none =>
    rw [Keeper.position?, List.findIdx?_eq_none_iff]
    intro q hq
    obtain ⟨i, hi⟩ := List.mem_iff_getElem?.mp hq
    rw [decide_eq_false_iff_not]
    intro hsame
    rw [Array.getElem?_toList] at hi
    cases hget.symm.trans (h.get?_eq_some_iff_same.mpr ⟨q, hi, hsame⟩)
  | some i =>
    obtain ⟨q, hq, hsame⟩ := h.get?_eq_some_iff_same.mp hget
    obtain ⟨hlt, rfl⟩ := Array.getElem?_eq_some_iff.mp hq
    rw [Keeper.position?, List.findIdx?_eq_some_iff_getElem]
    refine ⟨hlt, by simpa using hsame, fun j hj hearlier => ?_⟩
    -- an earlier point that is the same would have the position of this one
    have hj' : index.points[j]? = some index.points[j] :=
      Array.getElem?_eq_getElem (Nat.lt_trans hj hlt)
    exact absurd (h.position_unique hq hsame hj' (by simpa using hearlier)) (Nat.ne_of_lt hj)

/-- The index is in step, and its points are the list. -/
def Holds (index : PointIndex) (ps : List Point) : Prop :=
  index.InStep ∧ index.points.toList = ps

section Runs

variable {insert : PointIndex → Point → Nat × PointIndex} (hinsert : Inserts insert)

include hinsert

theorem simulates_searched : (Keeper.indexed insert).Simulates Keeper.searched Holds where
  insert {index ps} p h := by
    obtain ⟨hstep, rfl⟩ := h
    have hget := hstep.get?_eq_position? p
    have hnext := hinsert.inStep p hstep
    simp only [Keeper.indexed, Keeper.searched, ← hget]
    cases hp : index.get? p with
    | some i =>
      obtain ⟨hposition, hpoints⟩ := hinsert.known hstep hp
      exact ⟨hposition, hnext, by rw [hpoints]⟩
    | none =>
      obtain ⟨hposition, hpoints⟩ := hinsert.fresh hstep hp
      exact ⟨by rw [hposition, Array.length_toList]; rfl, hnext, by rw [hpoints, Array.toList_push]⟩
  get? p h := by
    obtain ⟨hstep, rfl⟩ := h
    exact hstep.get?_eq_position? p

/-! ## What a run of calls keeps -/

theorem InStep.run (h : index.InStep) (calls : List Call) :
    ((Keeper.indexed insert).run index calls).2.InStep :=
  ((simulates_searched hinsert).run ⟨h, rfl⟩ calls).2.1

/-- Points are put in at the end only. -/
theorem InStep.prefix_answer (h : index.InStep) (call : Call) :
    index.points.toList <+: ((Keeper.indexed insert).answer index call).2.points.toList := by
  cases call with
  | get p => exact List.prefix_rfl
  | insert p =>
    show _ <+: (insert index p).2.points.toList
    cases hp : index.get? p with
    | some i => rw [(hinsert.known h hp).2]
    | none =>
      rw [(hinsert.fresh h hp).2, Array.toList_push]
      exact List.prefix_append _ _

theorem InStep.prefix_run (h : index.InStep) (calls : List Call) :
    index.points.toList <+: ((Keeper.indexed insert).run index calls).2.points.toList := by
  induction calls generalizing index with
  | nil => exact List.prefix_rfl
  | cons call calls ih =>
    have hnext : ((Keeper.indexed insert).answer index call).2.InStep :=
      ((simulates_searched hinsert).answer ⟨h, rfl⟩ call).2.1
    exact (h.prefix_answer hinsert call).trans (ih hnext)

/-- The position given for a point holds a point that is the same. -/
theorem InStep.exists_same_insert (h : index.InStep) (p : Point) :
    ∃ q, (insert index p).2.points[(insert index p).1]? = some q ∧ q.Same p := by
  cases hp : index.get? p with
  | some i =>
    obtain ⟨hposition, hpoints⟩ := hinsert.known h hp
    rw [hposition, hpoints]
    exact h.get?_eq_some_iff_same.mp hp
  | none =>
    obtain ⟨hposition, hpoints⟩ := hinsert.fresh h hp
    rw [hposition, hpoints]
    exact ⟨p, Array.getElem?_push_size, (Point.key_eq_iff p p).mp rfl⟩

/-- A point that is stored has its position for good, and putting it in again changes no point. -/
theorem InStep.insert_of_getElem? (h : index.InStep) (hq : index.points[i]? = some q)
    (hqp : q.Same p) :
    (insert index p).1 = i ∧ (insert index p).2.points = index.points ∧ index.get? p = some i := by
  have hget := h.get?_eq_some_iff_same.mpr ⟨q, hq, hqp⟩
  obtain ⟨hposition, hpoints⟩ := hinsert.known h hget
  exact ⟨hposition, hpoints, hget⟩

end Runs

/-! ## Whole runs -/

theorem Keeper.run_append {σ : Type} (keeper : Keeper σ) (s : σ) (calls later : List Call) :
    (keeper.run s (calls ++ later)).2 = (keeper.run (keeper.run s calls).2 later).2 := by
  induction calls generalizing s with
  | nil => rfl
  | cons call calls ih => exact ih _

/-- The index that a run of calls leads to. -/
def reached (keeper : Keeper PointIndex) (calls : List Call) : PointIndex :=
  (keeper.run empty calls).2

/-- What it takes for a keeper with a table to be a list of points that is searched from the front,
after a run of calls. -/
structure ActsAsList (keeper : Keeper PointIndex) (calls : List Call) : Prop where
  /-- All answers are those of the list. -/
  answers : (keeper.run empty calls).1 = (Keeper.searched.run [] calls).1
  /-- So are the points. -/
  points : (reached keeper calls).points.toList = (Keeper.searched.run [] calls).2
  /-- The table holds a key at a position exactly if the point there has it. -/
  inStep : ∀ (k : PointKey) i, (reached keeper calls).lookup[k]? = some i
    ↔ ∃ q, (reached keeper calls).points[i]? = some q ∧ q.key = k
  /-- No two points have one key. -/
  distinct : (reached keeper calls).points.toList.Pairwise fun p q => p.key ≠ q.key
  /-- A point that is the same as a stored one has its position. There is no other such point, and
  putting it in changes no point. -/
  known : ∀ p q i, (reached keeper calls).points[i]? = some q → q.Same p →
    keeper.get? (reached keeper calls) p = some i
      ∧ (keeper.insert (reached keeper calls) p).1 = i
      ∧ (keeper.insert (reached keeper calls) p).2.points = (reached keeper calls).points
      ∧ ∀ j r, (reached keeper calls).points[j]? = some r → r.Same p → j = i
  /-- Any other point is not found, and goes to the end. -/
  fresh : ∀ p, (∀ q ∈ (reached keeper calls).points, ¬q.Same p) →
    keeper.get? (reached keeper calls) p = none
      ∧ (keeper.insert (reached keeper calls) p).1 = (reached keeper calls).size
      ∧ (keeper.insert (reached keeper calls) p).2.points = (reached keeper calls).points.push p
  /-- Later calls leave every position with the point that it has, bit for bit. -/
  stays : ∀ later, (reached keeper calls).points.toList
    <+: (reached keeper (calls ++ later)).points.toList
  /-- Whatever is called in between, a point that is put in again has its first position, and so has
  one with other signs at its zeros. No point is changed by it. -/
  again : ∀ p q later, p.Same q ∨ p.EqUpToZero q →
    keeper.get? (reached keeper (calls ++ .insert p :: later)) q
        = some (keeper.insert (reached keeper calls) p).1
      ∧ (keeper.insert (reached keeper (calls ++ .insert p :: later)) q).1
        = (keeper.insert (reached keeper calls) p).1
      ∧ (keeper.insert (reached keeper (calls ++ .insert p :: later)) q).2.points
        = (reached keeper (calls ++ .insert p :: later)).points

section Reached

variable {insert : PointIndex → Point → Nat × PointIndex} (hinsert : Inserts insert)
  (calls : List Call)

include hinsert

theorem inStep_reached : (reached (Keeper.indexed insert) calls).InStep :=
  inStep_empty.run hinsert calls

theorem pairwise_key_reached :
    (reached (Keeper.indexed insert) calls).points.toList.Pairwise fun p q => p.key ≠ q.key := by
  have hstep := inStep_reached hinsert calls
  rw [List.pairwise_iff_getElem]
  intro i j hi hj hij hkey
  refine absurd ?_ (Nat.ne_of_lt hij)
  exact hstep.position_unique (Array.getElem?_eq_getElem hj) ((Point.key_eq_iff _ _).mp rfl)
    (Array.getElem?_eq_getElem hi) ((Point.key_eq_iff _ _).mp hkey)

/-- The position that is given for a point keeps the point that it leads to. -/
theorem exists_same_reached (p : Point) (later : List Call) :
    ∃ r, (reached (Keeper.indexed insert) (calls ++ .insert p :: later)).points[
        (insert (reached (Keeper.indexed insert) calls) p).1]? = some r ∧ r.Same p := by
  have hstep := inStep_reached hinsert calls
  obtain ⟨r, hr, hsame⟩ := hstep.exists_same_insert hinsert p
  refine ⟨r, ?_, hsame⟩
  rw [← Array.getElem?_toList] at hr ⊢
  obtain ⟨hlt, rfl⟩ := List.getElem?_eq_some_iff.mp hr
  rw [reached, Keeper.run_append]
  exact List.prefix_iff_getElem?.mp ((hinsert.inStep p hstep).prefix_run hinsert later) _ hlt

/-- Every keeper with a table that is added to as `Inserts` says is such a list. -/
theorem actsAsList_of_inserts : ActsAsList (Keeper.indexed insert) calls where
  answers := ((simulates_searched hinsert).run ⟨inStep_empty, rfl⟩ calls).1
  points := ((simulates_searched hinsert).run ⟨inStep_empty, rfl⟩ calls).2.2
  inStep k i := by
    rw [inStep_reached hinsert calls k i, Option.map_eq_some_iff]
  distinct := pairwise_key_reached hinsert calls
  known p q i hq hqp := by
    have hstep := inStep_reached hinsert calls
    obtain ⟨hposition, hpoints, hget⟩ := hstep.insert_of_getElem? hinsert hq hqp
    exact ⟨hget, hposition, hpoints, fun j r hr hrp => hstep.position_unique hq hqp hr hrp⟩
  fresh p hp := by
    have hstep := inStep_reached hinsert calls
    have hget : (reached (Keeper.indexed insert) calls).get? p = none := by
      rw [Option.eq_none_iff_forall_ne_some]
      intro i hi
      obtain ⟨q, hq, hsame⟩ := hstep.get?_eq_some_iff_same.mp hi
      exact hp q (Array.mem_of_getElem? hq) hsame
    obtain ⟨hposition, hpoints⟩ := hinsert.fresh hstep hget
    exact ⟨hget, hposition, hpoints⟩
  stays later := by
    rw [reached, reached, Keeper.run_append]
    exact (inStep_reached hinsert calls).prefix_run hinsert later
  again p q later hpq := by
    have hsame : p.key = q.key := by
      rw [Point.key_eq_iff]
      exact hpq.elim id Point.EqUpToZero.same
    obtain ⟨r, hr, hrp⟩ := exists_same_reached hinsert calls p later
    rw [← Point.key_eq_iff, hsame, Point.key_eq_iff] at hrp
    obtain ⟨hposition, hpoints, hget⟩ :=
      (inStep_reached hinsert _).insert_of_getElem? hinsert hr hrp
    exact ⟨hget, hposition, hpoints⟩

end Reached

/-- **An index acts as a list that is searched from the front**, over every run of calls, and also
if an insertion tells a new point by its position alone. -/
theorem actsAsList_run (calls : List Call) :
    ActsAsList (Keeper.indexed insert) calls ∧ ActsAsList (Keeper.indexed insertOnce) calls :=
  ⟨actsAsList_of_inserts inserts_insert calls, actsAsList_of_inserts inserts_insertOnce calls⟩

end PointIndex

end SolidScript
