import SolidScript.Path

/-!
# The spelling of paths

A path as its parts and back. `steps` are the parts that folding looks at: the root where a path
starts with a slash, and what each stretch between slashes stands for. The steps of a joined path
are the steps of one path behind those of the other (`steps_join`), and a path that is spelled from
parts has these parts as its steps (`steps_ofComponents`).
-/

namespace SolidScript.Path

/-! ## Pieces -/

theorem pieces_cons (b : UInt8) (bs : Bytes) : pieces (b :: bs) = consPiece b (pieces bs) := rfl

theorem pieces_eq_splitOn (bs : Bytes) : pieces bs = bs.splitOn slash := by
  induction bs with
  | nil => rfl
  | cons b bs ih =>
    obtain ⟨q, qs, hq⟩ := List.exists_cons_of_ne_nil (List.splitOn_ne_nil slash bs)
    rw [pieces_cons, ih, List.splitOn_cons_eq_if_modifyHead, hq, consPiece, List.modifyHead]
    simp only [beq_iff_eq]

/-- A slash keeps the stretches before it apart from those behind it. -/
theorem pieces_append_slash (bs cs : Bytes) :
    pieces (bs ++ slash :: cs) = pieces bs ++ pieces cs := by
  rw [pieces_eq_splitOn, pieces_eq_splitOn, pieces_eq_splitOn, List.splitOn_append_cons_self]

/-- Stretches with a slash between each two are found again. -/
theorem pieces_intercalate {ls : List Bytes} (hne : ls ≠ []) (h : ∀ l ∈ ls, slash ∉ l) :
    pieces (List.intercalate [slash] ls) = ls := by
  rw [pieces_eq_splitOn, List.splitOn_intercalate slash h hne]

theorem notMem_of_mem_pieces {bs piece : Bytes} (h : piece ∈ pieces bs) : slash ∉ piece := by
  induction bs generalizing piece with
  | nil =>
    rw [List.mem_singleton.mp h]
    exact List.not_mem_nil
  | cons b bs ih =>
    rw [pieces_cons] at h
    cases hs : pieces bs with
    | nil => exact absurd hs (pieces_eq_splitOn bs ▸ List.splitOn_ne_nil slash bs)
    | cons q qs =>
      rw [hs] at ih h
      rw [List.forall_mem_cons] at ih
      rw [consPiece] at h
      split at h
      next =>
        rcases List.mem_cons.mp h with rfl | h
        · exact List.not_mem_nil
        · exact ih.elim fun hq hqs => (List.mem_cons.mp h).elim (· ▸ hq) (hqs piece)
      next hb =>
        rcases List.mem_cons.mp h with rfl | h
        · exact List.not_mem_cons_of_ne_of_not_mem (Ne.symm hb) ih.1
        · exact ih.2 piece h

/-- A path whose last stretch is empty ends in a slash. -/
theorem getLast?_of_pieces {bs : Bytes} (hne : bs ≠ []) (h : (pieces bs).getLast? = some []) :
    bs.getLast? = some slash := by
  induction bs with
  | nil => exact absurd rfl hne
  | cons b bs ih =>
    cases bs with
    | nil =>
      by_cases hb : b = slash
      · rw [hb, List.getLast?_singleton]
      · simp [pieces, consPiece, hb] at h
    | cons c cs =>
      rw [List.getLast?_cons_cons]
      refine ih (List.cons_ne_nil c cs) ?_
      rw [pieces_cons] at h
      cases hs : pieces (c :: cs) with
      | nil => rw [hs] at h; cases h
      | cons q qs =>
        rw [hs, consPiece] at h
        split at h
        next => rwa [List.getLast?_cons_cons] at h
        next =>
          -- the first stretch has grown, so the empty one is another
          cases qs with
          | nil => cases h
          | cons r rs => rwa [List.getLast?_cons_cons] at h ⊢

/-! ## Steps -/

/-- What the stretches of a path stand for, without what counts for nothing. -/
def tail (p : Path) : List Component := (pieces p.bytes).filterMap component?

/-- The root, if a path starts there. -/
def start (absolute : Bool) : List Component := if absolute then [.root] else []

/-- The parts of a path that folding looks at. -/
def steps (p : Path) : List Component := start p.isAbsolute ++ p.tail

theorem components_eq_steps {p : Path} (h : (pieces p.bytes).head? ≠ some [dot]) :
    p.components = p.steps := by
  rw [components, if_neg h, steps, start, tail]
  split <;> rfl

/-- A `.` in front makes no difference to a fold that passes over it. -/
theorem foldl_components {σ : Type} {f : σ → Component → σ} (hf : ∀ s, f s .here = s) (p : Path)
    (s : σ) : p.components.foldl f s = p.steps.foldl f s := by
  rw [components, steps, start, tail]
  split
  · rfl
  · split
    · rw [List.foldl_cons, hf]
      rfl
    · rfl

theorem join_of_isAbsolute (p : Path) {q : Path} (h : q.isAbsolute = true) : p.join q = q := by
  rw [join, if_pos h]

theorem isAbsolute_join (p : Path) {q : Path} (h : q.isAbsolute = false) :
    (p.join q).isAbsolute = p.isAbsolute := by
  rw [join, if_neg (by simp [h])]
  cases hb : p.bytes with
  | nil => rw [List.getLast?_nil, h, isAbsolute, hb]; rfl
  | cons b bs =>
    split
    next => simp_all
    next => split <;> simp [isAbsolute, hb]

theorem tail_join (p : Path) {q : Path} (h : q.isAbsolute = false) :
    (p.join q).tail = p.tail ++ q.tail := by
  rw [join, if_neg (by simp [h])]
  cases hb : p.bytes.getLast? with
  | none =>
    rw [tail.eq_1 p, List.getLast?_eq_none_iff.mp hb]
    rfl
  | some b =>
    dsimp only
    split
    next hslash =>
      -- the slash between the two paths is the last byte of the first
      obtain ⟨bs, hbs⟩ := List.getLast?_eq_some_iff.mp hb
      rw [tail, tail, tail, hbs, hslash, List.append_assoc, List.singleton_append,
        pieces_append_slash, pieces_append_slash, List.filterMap_append, List.filterMap_append]
      simp [pieces, component?]
    next => rw [tail, tail, tail, pieces_append_slash, List.filterMap_append]

/-- A relative path is followed from where the other path ends. -/
theorem steps_join (p : Path) {q : Path} (h : q.isAbsolute = false) :
    (p.join q).steps = p.steps ++ q.steps := by
  rw [steps, isAbsolute_join p h, tail_join p h, steps, steps, h, List.append_assoc]
  rfl

/-! ## Spelling -/

/-- The part is what a stretch between slashes with its spelling stands for. -/
def IsPiece (part : Component) : Prop :=
  component? (spelling part) = some part ∧ slash ∉ spelling part

theorem isPiece_up : IsPiece .up := ⟨by decide, by decide⟩

theorem IsPiece.spelling_ne_nil {part : Component} (h : IsPiece part) : spelling part ≠ [] := by
  intro hnil
  rw [IsPiece, hnil] at h
  simp [component?] at h

theorem spelling_of_component? {piece : Bytes} {part : Component}
    (h : component? piece = some part) : spelling part = piece := by
  rw [component?] at h
  split at h
  next => cases h
  split at h
  next => cases h
  split at h
  next hup => cases h; exact hup.symm
  next => cases h; rfl

/-- A part of a path stands for a stretch that is its spelling. -/
theorem spelling_mem_pieces {p : Path} {part : Component} (h : part ∈ p.tail) :
    spelling part ∈ pieces p.bytes := by
  obtain ⟨piece, hmem, hpart⟩ := List.mem_filterMap.mp h
  rwa [spelling_of_component? hpart]

theorem isPiece_of_mem_tail {p : Path} {part : Component} (h : part ∈ p.tail) : IsPiece part := by
  obtain ⟨piece, -, hpart⟩ := List.mem_filterMap.mp h
  exact ⟨by rwa [spelling_of_component? hpart], notMem_of_mem_pieces (spelling_mem_pieces h)⟩

theorem filterMap_spelling {parts : List Component} (h : ∀ part ∈ parts, IsPiece part) :
    (parts.map spelling).filterMap component? = parts := by
  induction parts with
  | nil => rfl
  | cons part parts ih =>
    rw [List.forall_mem_cons] at h
    rw [List.map_cons, List.filterMap_cons_some h.1.1, ih h.2]

/-- The bytes of parts below the root or below a relative start. -/
theorem bytes_ofComponents (absolute : Bool) {rest : List Component} (hne : rest ≠ [])
    (h : ∀ part ∈ rest, IsPiece part) :
    (ofComponents (start absolute ++ rest)).bytes
      = (if absolute then [slash] else []) ++ List.intercalate [slash] (rest.map spelling) := by
  obtain ⟨part, parts, rfl⟩ := List.exists_cons_of_ne_nil hne
  have hpart := (List.forall_mem_cons.mp h).1.spelling_ne_nil
  cases absolute with
  | true => simp [start, ofComponents, spelling]
  | false =>
    rw [start, if_neg Bool.false_ne_true, if_neg Bool.false_ne_true, List.nil_append,
      List.nil_append, ofComponents]
    -- the root is the only part that is spelled apart, and it is no piece
    rintro ⟨rfl⟩
    exact hpart rfl

theorem isAbsolute_ofComponents (absolute : Bool) {rest : List Component}
    (h : ∀ part ∈ rest, IsPiece part) :
    (ofComponents (start absolute ++ rest)).isAbsolute = absolute := by
  cases hrest : rest with
  | nil => cases absolute <;> rfl
  | cons part parts =>
    have hne : rest ≠ [] := hrest ▸ List.cons_ne_nil part parts
    rw [← hrest, isAbsolute, bytes_ofComponents absolute hne h]
    cases absolute with
    | true => simp
    | false =>
      rw [hrest, List.forall_mem_cons] at h
      obtain ⟨b, bs, hb⟩ := List.exists_cons_of_ne_nil h.1.spelling_ne_nil
      have hslash : b ≠ slash := fun hb' => h.1.2 (by rw [hb, hb']; exact List.mem_cons_self)
      simp [hrest, Text.intercalate_cons, hb, hslash]

/-- The stretches of a path that is spelled from parts are the spellings of these, but for the empty
ones beside the root and in the empty path. -/
theorem pieces_ofComponents (absolute : Bool) {rest : List Component} (hne : rest ≠ [])
    (h : ∀ part ∈ rest, IsPiece part) :
    pieces (ofComponents (start absolute ++ rest)).bytes
      = (if absolute then [[]] else []) ++ rest.map spelling := by
  have hpieces : pieces (List.intercalate [slash] (rest.map spelling)) = rest.map spelling :=
    pieces_intercalate (by simpa using hne) (by simpa using fun part hpart => (h part hpart).2)
  rw [bytes_ofComponents absolute hne h]
  cases absolute with
  | true =>
    refine (pieces_append_slash [] (List.intercalate [slash] (rest.map spelling))).trans ?_
    rw [hpieces]
    rfl
  | false => exact hpieces

theorem tail_ofComponents (absolute : Bool) {rest : List Component}
    (h : ∀ part ∈ rest, IsPiece part) : (ofComponents (start absolute ++ rest)).tail = rest := by
  cases hrest : rest with
  | nil => cases absolute <;> rfl
  | cons part parts =>
    have hne : rest ≠ [] := hrest ▸ List.cons_ne_nil part parts
    rw [← hrest, tail, pieces_ofComponents absolute hne h, List.filterMap_append,
      filterMap_spelling h]
    cases absolute <;> rfl

/-- A path that is spelled from parts has these parts as its steps. -/
theorem steps_ofComponents (absolute : Bool) {rest : List Component}
    (h : ∀ part ∈ rest, IsPiece part) :
    (ofComponents (start absolute ++ rest)).steps = start absolute ++ rest := by
  rw [steps, isAbsolute_ofComponents absolute h, tail_ofComponents absolute h]

theorem mem_pieces_ofComponents (absolute : Bool) {rest : List Component} {piece : Bytes}
    (h : ∀ part ∈ rest, IsPiece part)
    (hmem : piece ∈ pieces (ofComponents (start absolute ++ rest)).bytes) :
    piece = [] ∨ ∃ part ∈ rest, piece = spelling part := by
  by_cases hne : rest = []
  · subst hne
    left
    cases absolute with
    | true => simpa [start, ofComponents, pieces, consPiece] using hmem
    | false => simpa [start, ofComponents, pieces] using hmem
  · rw [pieces_ofComponents absolute hne h, List.mem_append, List.mem_map] at hmem
    rcases hmem with hmem | ⟨part, hpart, rfl⟩
    · left
      cases absolute with
      | true => exact List.mem_singleton.mp hmem
      | false => cases hmem
    · exact Or.inr ⟨part, hpart, rfl⟩

end SolidScript.Path
