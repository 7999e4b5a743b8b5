import Mathlib.Data.Finset.Card
import Mathlib.Data.Finset.Range
import SolidScript.PointIndex

/-!
# Point index, its laws

The points of an index and its table of keys agree (`PointIndex.InStep`). One `insert` keeps this,
gives no position away that it has given before, and hands out the next free position or an old one;
what follows for a run of insertions is read off that.

The main statement is `firstOccurrence_indexFaces`: faces over one list of points are the faces they
were, and the list holds every point once, in the order and the spelling of its first appearance.
-/

namespace SolidScript

/-! ## Keys -/

/-- Numbers that are equal as numbers or have one word. Zeros of either sign are, and so is every
NaN to itself. -/
def Binary64.Same (x y : Binary64) : Prop := x.eqv y = true ∨ x = y

/-- Points whose coordinates are the same one by one. -/
def Point.Same (p q : Point) : Prop := p.x.Same q.x ∧ p.y.Same q.y ∧ p.z.Same q.z

instance (x y : Binary64) : Decidable (x.Same y) :=
  inferInstanceAs (Decidable (x.eqv y = true ∨ x = y))

instance (p q : Point) : Decidable (p.Same q) :=
  inferInstanceAs (Decidable (p.x.Same q.x ∧ p.y.Same q.y ∧ p.z.Same q.z))

namespace Binary64

theorem isZero_of_bits {x : Binary64} (h : x.bits = 0) : x.isZero = true := by
  simp [isZero, word, h]

theorem isNaN_of_isZero {x : Binary64} (h : x.isZero = true) : x.isNaN = false := by
  simp only [isZero, decide_eq_true_eq] at h
  have hf : x.fraction = 0 := by
    simp only [fraction]
    omega
  simp [isNaN, hf]

/-- A key tells numbers apart exactly as far as they are not the same. -/
theorem key_eq_iff (x y : Binary64) : x.key = y.key ↔ x.Same y := by
  constructor
  · intro h
    by_cases hx : x.isZero = true
    · by_cases hy : y.isZero = true
      · exact Or.inl (by simp [eqv, hx, hy, isNaN_of_isZero])
      · -- the key of the zero is the word of the other, which is then a zero too
        simp only [key, if_pos hx, if_neg hy] at h
        exact absurd (isZero_of_bits h.symm) hy
    · by_cases hy : y.isZero = true
      · simp only [key, if_neg hx, if_pos hy] at h
        exact absurd (isZero_of_bits h) hx
      · simp only [key, if_neg hx, if_neg hy] at h
        exact Or.inr (congrArg Binary64.mk h)
  · rintro (h | rfl)
    · simp only [eqv, Bool.and_eq_true, Bool.or_eq_true, beq_iff_eq] at h
      obtain ⟨-, rfl | ⟨hx, hy⟩⟩ := h
      · rfl
      · rw [key, key, if_pos hx, if_pos hy]
    · rfl

end Binary64

theorem Point.key_eq_iff (p q : Point) : p.key = q.key ↔ p.Same q := by
  simp only [Point.key, PointKey.mk.injEq, Binary64.key_eq_iff, Point.Same]

namespace PointIndex

/-! ## One insertion -/

/-- The table holds a key at a position exactly if the point there has it. -/
def InStep (index : PointIndex) : Prop :=
  ∀ k i, index.lookup[k]? = some i ↔ index.points[i]?.map Point.key = some k

variable {index : PointIndex} {p q : Point} {i : Nat}

theorem InStep.get?_eq_some_iff (h : index.InStep) :
    index.get? p = some i ↔ index.points[i]?.map Point.key = some p.key := h p.key i

theorem InStep.lt_size (h : index.InStep) (hp : index.get? p = some i) : i < index.size := by
  obtain ⟨q, hq, -⟩ := Option.map_eq_some_iff.mp (h.get?_eq_some_iff.mp hp)
  exact (Array.getElem?_eq_some_iff.mp hq).1

/-- All that an insertion can do. -/
theorem insert_cases (index : PointIndex) (p : Point) :
    (∃ i, index.get? p = some i ∧ index.insert p = (i, index)) ∨
      (index.get? p = none ∧ index.insert p =
        (index.size, ⟨index.points.push p, index.lookup.insert p.key index.size⟩)) := by
  cases h : index.get? p with
  | some i => exact Or.inl ⟨i, rfl, by simp [insert, h]⟩
  | none => exact Or.inr ⟨rfl, by simp [insert, h]⟩

theorem inStep_empty : empty.InStep := by
  intro k i
  simp [empty]

theorem InStep.insert (h : index.InStep) (p : Point) : (index.insert p).2.InStep := by
  rcases insert_cases index p with ⟨i, -, hr⟩ | ⟨hnone, hr⟩
  · rw [hr]
    exact h
  · rw [hr]
    intro k i
    simp only [Std.HashMap.getElem?_insert, beq_iff_eq, Array.getElem?_push]
    by_cases hi : i = index.points.size
    · -- the new position, where no key stood before
      have hfree : index.lookup[k]? ≠ some i := by
        intro hk
        have := (h k i).mp hk
        simp [hi] at this
      by_cases hk : p.key = k
      · simp [hk, hi, size]
      · simp [hk, hi, hi ▸ hfree]
    · by_cases hk : p.key = k
      · have hold : ¬index.points[i]?.map Point.key = some k := by
          rw [← h k i, ← hk]
          simp [show index.lookup[p.key]? = none from hnone]
        simpa [hk, hi, size, Ne.symm hi] using hold
      · simpa [hk, hi] using h k i

theorem get?_insert_self (index : PointIndex) (p : Point) :
    (index.insert p).2.get? p = some (index.insert p).1 := by
  rcases insert_cases index p with ⟨i, hp, hr⟩ | ⟨-, hr⟩
  · rw [hr, hp]
  · simp [hr, get?]

/-- A position once given stays. -/
theorem get?_insert_of_some (p : Point) (hq : index.get? q = some i) :
    (index.insert p).2.get? q = some i := by
  rcases insert_cases index p with ⟨j, -, hr⟩ | ⟨hnone, hr⟩
  · rw [hr, hq]
  · have hne : p.key ≠ q.key := by
      intro hk
      simp only [get?] at hq hnone
      rw [hk, hq] at hnone
      cases hnone
    rw [get?] at hq
    simp [hr, get?, Std.HashMap.getElem?_insert, hne, hq]

/-! ## A run of insertions -/

theorem insertAll_cons (index : PointIndex) (p : Point) (ps : List Point) :
    index.insertAll (p :: ps) = ((index.insert p).1 :: ((index.insert p).2.insertAll ps).1,
      ((index.insert p).2.insertAll ps).2) := rfl

theorem InStep.insertAll (h : index.InStep) (ps : List Point) : (index.insertAll ps).2.InStep := by
  induction ps generalizing index with
  | nil => exact h
  | cons p ps ih => exact ih (h.insert p)

theorem get?_insertAll_of_some (ps : List Point) (hq : index.get? q = some i) :
    (index.insertAll ps).2.get? q = some i := by
  induction ps generalizing index with
  | nil => exact hq
  | cons p ps ih => exact ih (get?_insert_of_some p hq)

/-- The positions of a run are those at which the index finds the points in the end. -/
theorem insertAll_map_some (index : PointIndex) (ps : List Point) :
    (index.insertAll ps).1.map some = ps.map (index.insertAll ps).2.get? := by
  induction ps generalizing index with
  | nil => rfl
  | cons p ps ih =>
    rw [insertAll_cons, List.map_cons, List.map_cons, ih]
    rw [get?_insertAll_of_some ps (get?_insert_self index p)]

theorem insertAll_append (index : PointIndex) (ps qs : List Point) :
    index.insertAll (ps ++ qs) =
      ((index.insertAll ps).1 ++ ((index.insertAll ps).2.insertAll qs).1,
        ((index.insertAll ps).2.insertAll qs).2) := by
  induction ps generalizing index with
  | nil => rfl
  | cons p ps ih => simp only [List.cons_append, insertAll_cons, ih]

theorem size_le_size_insert (index : PointIndex) (p : Point) :
    index.size ≤ (index.insert p).2.size := by
  rcases insert_cases index p with ⟨i, -, hr⟩ | ⟨-, hr⟩ <;> simp [hr, size]

/-- The positions below the size in the end are the old ones and those of the run. -/
theorem InStep.lt_size_insertAll (h : index.InStep) (ps : List Point) (k : Nat) :
    k < (index.insertAll ps).2.size ↔ k < index.size ∨ k ∈ (index.insertAll ps).1 := by
  induction ps generalizing index with
  | nil => simp [PointIndex.insertAll]
  | cons p ps ih =>
    rw [insertAll_cons, List.mem_cons, ih (h.insert p), ← or_assoc]
    have hstep : k < (index.insert p).2.size ↔ k < index.size ∨ k = (index.insert p).1 := by
      rcases insert_cases index p with ⟨i, hp, hr⟩ | ⟨-, hr⟩
      · have hi := h.lt_size hp
        rw [hr]
        constructor
        · exact Or.inl
        · rintro (hk | rfl)
          · exact hk
          · exact hi
      · rw [hr, size, size, Array.size_push]
        exact Nat.lt_succ_iff_lt_or_eq
    rw [hstep]

/-- Old positions keep their points. -/
theorem points_insert_of_lt (p : Point) {k : Nat} (hk : k < index.size) :
    (index.insert p).2.points[k]? = index.points[k]? := by
  rcases insert_cases index p with ⟨i, -, hr⟩ | ⟨-, hr⟩
  · rw [hr]
  · simp [hr, Array.getElem?_push, Nat.ne_of_lt (show k < index.points.size from hk)]

theorem points_insertAll_of_lt (ps : List Point) {k : Nat} (hk : k < index.size) :
    (index.insertAll ps).2.points[k]? = index.points[k]? := by
  induction ps generalizing index with
  | nil => rfl
  | cons p ps ih =>
    rw [insertAll_cons, ih (Nat.lt_of_lt_of_le hk (size_le_size_insert index p)),
      points_insert_of_lt p hk]

/-- A new position holds the first point of the run that was given it. -/
theorem InStep.points_insertAll (h : index.InStep) (ps : List Point) {k : Nat}
    (hk : index.size ≤ k) :
    (index.insertAll ps).2.points[k]? = ps[(index.insertAll ps).1.idxOf k]? := by
  induction ps generalizing index with
  | nil => simpa [PointIndex.insertAll, size] using hk
  | cons p ps ih =>
    rw [insertAll_cons]
    by_cases hi : (index.insert p).1 = k
    · -- `p` takes the position, which is free: it was not found before
      rcases insert_cases index p with ⟨i, hp, hr⟩ | ⟨-, hr⟩
      · have := h.lt_size hp
        simp only [hr] at hi
        omega
      · have hlt : k < (index.insert p).2.size := by
          simp only [hr] at hi ⊢
          simp [← hi, size]
        rw [points_insertAll_of_lt ps hlt]
        simp only [hr] at hi
        simp [hr, ← hi, size]
    · -- `k` is not the position of `p`, so it is given after `p` has been put in
      have hle : (index.insert p).2.size ≤ k := by
        rcases insert_cases index p with ⟨i, -, hr⟩ | ⟨-, hr⟩
        · rw [hr]
          exact hk
        · simp only [hr] at hi
          simp only [hr, size, Array.size_push] at hi ⊢
          have : index.points.size ≤ k := hk
          omega
      rw [ih (h.insert p) hle]
      simp [hi]

/-- From the empty index on, the positions given so far are those below the size. -/
theorem toFinset_insertAll (ps : List Point) :
    (empty.insertAll ps).1.toFinset = Finset.range (empty.insertAll ps).2.size := by
  ext k
  rw [List.mem_toFinset, Finset.mem_range, inStep_empty.lt_size_insertAll ps k]
  simp [empty, size]

/-- Each position of a run was given before or is the number of those given before. -/
theorem mem_or_eq_card_insertAll (ps : List Point) (n k : Nat)
    (h : (empty.insertAll ps).1[n]? = some k) :
    k ∈ (empty.insertAll ps).1.take n ∨ k = ((empty.insertAll ps).1.take n).toFinset.card := by
  have hlen (qs : List Point) : (empty.insertAll qs).1.length = qs.length := by
    simpa using congrArg List.length (insertAll_map_some empty qs)
  have hn : n < ps.length := by
    rw [← hlen ps]
    exact (List.getElem?_eq_some_iff.mp h).1
  -- the run falls into the part before `n`, one insertion, and the rest
  have hsplit : ps = ps.take n ++ ps[n] :: ps.drop (n + 1) := by
    rw [← List.drop_eq_getElem_cons hn, List.take_append_drop]
  have hcut := congrArg (fun qs => (empty.insertAll qs).1) hsplit
  simp only [insertAll_append, insertAll_cons] at hcut
  have hlen_n : (empty.insertAll (ps.take n)).1.length = n := by
    rw [hlen, List.length_take, Nat.min_eq_left (Nat.le_of_lt hn)]
  rw [hcut, List.getElem?_append_right (Nat.le_of_eq hlen_n), hlen_n, Nat.sub_self] at h
  have htake : (empty.insertAll ps).1.take n = (empty.insertAll (ps.take n)).1 := by
    rw [hcut, List.take_append_of_le_length (Nat.le_of_eq hlen_n.symm),
      List.take_of_length_le (Nat.le_of_eq hlen_n)]
  have hk : ((empty.insertAll (ps.take n)).2.insert ps[n]).1 = k := by simpa using h
  rw [htake, toFinset_insertAll, Finset.card_range, ← List.mem_toFinset, toFinset_insertAll,
    Finset.mem_range]
  rcases insert_cases (empty.insertAll (ps.take n)).2 ps[n] with ⟨i, hp, hr⟩ | ⟨-, hr⟩
  · rw [hr] at hk
    exact Or.inl (hk ▸ (inStep_empty.insertAll _).lt_size hp)
  · rw [hr] at hk
    exact Or.inr hk.symm

/-! ## Faces -/

theorem insertFaces_cons (index : PointIndex) (f : Face) (fs : List Face) :
    index.insertFaces (f :: fs) =
      ((index.insertAll f.points).1 :: ((index.insertAll f.points).2.insertFaces fs).1,
        ((index.insertAll f.points).2.insertFaces fs).2) := rfl

/-- Faces are one run over all their points. -/
theorem insertFaces_eq_insertAll (index : PointIndex) (fs : List Face) :
    (index.insertFaces fs).2 = (index.insertAll (fs.flatMap Face.points)).2 ∧
      (index.insertFaces fs).1.flatten = (index.insertAll (fs.flatMap Face.points)).1 := by
  induction fs generalizing index with
  | nil => exact ⟨rfl, rfl⟩
  | cons f fs ih =>
    obtain ⟨hindex, hflat⟩ := ih (index.insertAll f.points).2
    rw [insertFaces_cons, List.flatMap_cons, insertAll_append]
    exact ⟨hindex, by rw [List.flatten_cons, hflat]⟩

/-- The positions of each face are those at which the index finds its points in the end. -/
theorem insertFaces_map_some (index : PointIndex) (fs : List Face) :
    (index.insertFaces fs).1.map (·.map some)
      = fs.map fun f => f.points.map (index.insertFaces fs).2.get? := by
  induction fs generalizing index with
  | nil => rfl
  | cons f fs ih =>
    rw [insertFaces_cons, List.map_cons, List.map_cons, ih]
    congr 1
    -- what is found after the first face is found after all of them
    have hfirst := insertAll_map_some index f.points
    have hsome : ∀ p ∈ f.points, ∃ i, (index.insertAll f.points).2.get? p = some i := by
      intro p hp
      have : (index.insertAll f.points).2.get? p ∈ (index.insertAll f.points).1.map some := by
        rw [hfirst]
        exact List.mem_map_of_mem hp
      obtain ⟨i, -, hi⟩ := List.mem_map.mp this
      exact ⟨i, hi.symm⟩
    rw [hfirst]
    refine List.map_congr_left fun p hp => ?_
    obtain ⟨i, hi⟩ := hsome p hp
    rw [hi, (insertFaces_eq_insertAll _ fs).1, get?_insertAll_of_some _ hi]

end PointIndex

/-! ## Faces over one list of points -/

/-- The corner at a position: the number of a face, and the number of a corner of it. -/
def corner? (faces : List Face) (f c : Nat) : Option Point := faces[f]?.bind (·.points[c]?)

/-- What stands for the corner at a position. -/
def IndexedFaces.reference? (r : IndexedFaces) (f c : Nat) : Option Nat := r.faces[f]?.bind (·[c]?)

/-- **Deduplication by first occurrence**: what it takes for `r` to be `faces` over one list of
points, each standing once, in the order and the spelling of its first appearance. -/
structure FirstOccurrence (faces : List Face) (r : IndexedFaces) : Prop where
  /-- Every face is there, and has as many corners. -/
  lengths : r.faces.map List.length = faces.map fun f => f.points.length
  /-- Every reference leads to a point. -/
  inRange : ∀ f c i, r.reference? f c = some i → i < r.points.length
  /-- The point referred to is the corner, up to the sign of a zero. -/
  keepsCorner : ∀ f c p, corner? faces f c = some p →
    ∃ i q, r.reference? f c = some i ∧ r.points[i]? = some q ∧ q.Same p
  /-- Two corners share a reference exactly if they are the same. -/
  shared_iff : ∀ f c p g d q, corner? faces f c = some p → corner? faces g d = some q →
    (r.reference? f c = r.reference? g d ↔ p.Same q)
  /-- From left to right, each reference is an old one or the number of those seen so far. -/
  inOrder : ∀ n k, r.faces.flatten[n]? = some k →
    k ∈ r.faces.flatten.take n ∨ k = (r.faces.flatten.take n).toFinset.card
  /-- A point is, bit for bit, the first corner that refers to it. -/
  firstSpelling : ∀ k, r.points[k]? = (faces.flatMap Face.points)[r.faces.flatten.idxOf k]?
  /-- Every point is referred to. -/
  used : ∀ k, k < r.points.length → k ∈ r.faces.flatten
  /-- No two points are the same. -/
  distinct : r.points.Pairwise fun p q => ¬p.Same q

theorem indexFaces_eq (faces : List Face) :
    indexFaces faces = ⟨(PointIndex.empty.insertFaces faces).2.points.toList,
      (PointIndex.empty.insertFaces faces).1⟩ := rfl

section

variable (faces : List Face)

theorem points_indexFaces :
    (indexFaces faces).points
      = (PointIndex.empty.insertAll (faces.flatMap Face.points)).2.points.toList := by
  rw [indexFaces_eq, (PointIndex.insertFaces_eq_insertAll _ faces).1]

theorem flatten_indexFaces :
    (indexFaces faces).faces.flatten
      = (PointIndex.empty.insertAll (faces.flatMap Face.points)).1 := by
  rw [indexFaces_eq, (PointIndex.insertFaces_eq_insertAll _ faces).2]

theorem inStep_insertFaces : (PointIndex.empty.insertFaces faces).2.InStep := by
  rw [(PointIndex.insertFaces_eq_insertAll _ faces).1]
  exact PointIndex.inStep_empty.insertAll _

/-- The reference to a corner is where the index finds it in the end. -/
theorem reference?_indexFaces (f c : Nat) :
    ((indexFaces faces).reference? f c).map some
      = (corner? faces f c).map (PointIndex.empty.insertFaces faces).2.get? := by
  have h := congrArg (·[f]?.bind (·[c]?))
    (PointIndex.insertFaces_map_some PointIndex.empty faces)
  simp only [List.getElem?_map, Option.bind_map, Function.comp_def] at h
  rw [IndexedFaces.reference?, corner?, indexFaces_eq, Option.map_bind, Option.map_bind]
  exact h

/-- A corner is referred to, by the position of a point that is the same. -/
theorem exists_reference {f c : Nat} {p : Point} (h : corner? faces f c = some p) :
    ∃ i q, (indexFaces faces).reference? f c = some i ∧
      (PointIndex.empty.insertFaces faces).2.get? p = some i ∧
      (indexFaces faces).points[i]? = some q ∧ q.Same p := by
  have href := reference?_indexFaces faces f c
  rw [h, Option.map_some] at href
  obtain ⟨i, hi, hget⟩ := Option.map_eq_some_iff.mp href
  obtain ⟨q, hq, hkey⟩ :=
    Option.map_eq_some_iff.mp ((inStep_insertFaces faces).get?_eq_some_iff.mp hget.symm)
  exact ⟨i, q, hi, hget.symm, by simpa [indexFaces_eq] using hq, (Point.key_eq_iff q p).mp hkey⟩

theorem lengths_indexFaces :
    (indexFaces faces).faces.map List.length = faces.map fun f => f.points.length := by
  have h := congrArg (List.map List.length)
    (PointIndex.insertFaces_map_some PointIndex.empty faces)
  simpa [indexFaces_eq, List.map_map, Function.comp_def] using h

theorem lt_length_of_reference {f c i : Nat} (h : (indexFaces faces).reference? f c = some i) :
    i < (indexFaces faces).points.length := by
  have href := reference?_indexFaces faces f c
  rw [h, Option.map_some] at href
  obtain ⟨p, -, hp⟩ := Option.map_eq_some_iff.mp href.symm
  simpa [indexFaces_eq, PointIndex.size] using (inStep_insertFaces faces).lt_size hp

theorem reference?_eq_iff {f c g d : Nat} {p q : Point} (hp : corner? faces f c = some p)
    (hq : corner? faces g d = some q) :
    (indexFaces faces).reference? f c = (indexFaces faces).reference? g d ↔ p.Same q := by
  obtain ⟨i, a, hi, hpi, ha, hap⟩ := exists_reference faces hp
  obtain ⟨j, b, hj, hqj, hb, hbq⟩ := exists_reference faces hq
  rw [hi, hj, Option.some_inj, ← Point.key_eq_iff]
  rw [← Point.key_eq_iff] at hap hbq
  constructor
  · rintro rfl
    -- one position holds one point, which has both keys
    rw [ha] at hb
    rw [← hap, ← hbq, Option.some.inj hb]
  · intro hkey
    rw [PointIndex.get?, hkey] at hpi
    rw [PointIndex.get?, hpi] at hqj
    exact Option.some.inj hqj

theorem mem_flatten_indexFaces {k : Nat} (h : k < (indexFaces faces).points.length) :
    k ∈ (indexFaces faces).faces.flatten := by
  rw [flatten_indexFaces, ← List.mem_toFinset, PointIndex.toFinset_insertAll, Finset.mem_range]
  simpa [points_indexFaces, PointIndex.size] using h

theorem pairwise_indexFaces : (indexFaces faces).points.Pairwise fun p q => ¬p.Same q := by
  rw [List.pairwise_iff_getElem]
  intro i j hi hj hij hsame
  have hstep := inStep_insertFaces faces
  -- two positions of one key would both be the position of that key
  have hat (k : Nat) (hk : k < (indexFaces faces).points.length) :
      (PointIndex.empty.insertFaces faces).2.get? (indexFaces faces).points[k] = some k := by
    rw [hstep.get?_eq_some_iff]
    have := List.getElem?_eq_getElem hk
    simp only [indexFaces_eq] at this ⊢
    rw [← Array.getElem?_toList, this]
    rfl
  have hi' := hat i hi
  have hj' := hat j hj
  rw [← Point.key_eq_iff] at hsame
  rw [PointIndex.get?, hsame] at hi'
  rw [PointIndex.get?, hi'] at hj'
  exact absurd (Option.some.inj hj') (Nat.ne_of_lt hij)

end

/-- **Indexing loses nothing**: it is deduplication by first occurrence, whatever the coordinates
are. -/
theorem firstOccurrence_indexFaces (faces : List Face) :
    FirstOccurrence faces (indexFaces faces) where
  lengths := lengths_indexFaces faces
  inRange _ _ _ h := lt_length_of_reference faces h
  keepsCorner f c p h := by
    obtain ⟨i, q, hi, -, hq, hsame⟩ := exists_reference faces h
    exact ⟨i, q, hi, hq, hsame⟩
  shared_iff f c p g d q hp hq := reference?_eq_iff faces hp hq
  inOrder n k h := by
    rw [flatten_indexFaces] at h ⊢
    exact PointIndex.mem_or_eq_card_insertAll _ n k h
  firstSpelling k := by
    rw [points_indexFaces, flatten_indexFaces, Array.getElem?_toList,
      PointIndex.inStep_empty.points_insertAll _ (Nat.zero_le k)]
  used _ h := mem_flatten_indexFaces faces h
  distinct := pairwise_indexFaces faces

end SolidScript
