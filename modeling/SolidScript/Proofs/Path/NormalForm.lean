import Mathlib.Data.List.DropRight
import SolidScript.Proofs.Path.Folding

/-!
# The normal form of a path

Folding on the written path comes to the same as folding on a stack, because what is written so far
always spells the stack (`foldWritten_ofComponents`): the parts on it are found again, one more goes
behind them, and the last one can be taken away.

`IsNormalForm` says what is meant by a normal form, of the parts and of the bytes. Each path has one
(`eq_normalize_iff_isNormalForm`).
-/

namespace SolidScript.Path

variable {absolute : Bool} {rest stack : List Component} {part : Component} {b : Bytes}

/-! ## Spelled paths -/

theorem intercalate_append_singleton (piece : Bytes) {ls : List Bytes} (h : ls ≠ []) :
    List.intercalate [slash] (ls ++ [piece]) = List.intercalate [slash] ls ++ slash :: piece := by
  obtain ⟨l, ls, rfl⟩ := List.exists_cons_of_ne_nil h
  rw [List.cons_append, Text.intercalate_cons, Text.intercalate_cons, List.flatMap_append]
  simp

/-- An empty stretch in front is a slash in front. -/
theorem intercalate_front (absolute : Bool) {ls : List Bytes} (h : ls ≠ []) :
    List.intercalate [slash] ((if absolute then [[]] else []) ++ ls)
      = (if absolute then [slash] else []) ++ List.intercalate [slash] ls := by
  obtain ⟨l, ls, rfl⟩ := List.exists_cons_of_ne_nil h
  cases absolute <;> simp [Text.intercalate_cons]

theorem IsPiece.spelling_ne_dot (h : IsPiece part) : spelling part ≠ [dot] := by
  intro hdot
  rw [IsPiece, hdot] at h
  simp [component?] at h

/-- A path that is spelled from parts has these parts. -/
theorem components_ofComponents (absolute : Bool) (h : ∀ part ∈ rest, IsPiece part) :
    (ofComponents (start absolute ++ rest)).components = start absolute ++ rest := by
  rw [components_eq_steps, steps_ofComponents absolute h]
  intro hhead
  obtain ⟨pieces, hpieces⟩ := List.head?_eq_some_iff.mp hhead
  rcases mem_pieces_ofComponents absolute h (hpieces ▸ List.mem_cons_self) with hnil | hdot
  · cases hnil
  · obtain ⟨part, hpart, hdot⟩ := hdot
    exact (h part hpart).spelling_ne_dot hdot.symm

theorem isAbsolute_spelling (h : IsPiece part) : (⟨spelling part⟩ : Path).isAbsolute = false := by
  cases hs : spelling part with
  | nil => rfl
  | cons b bs =>
    have hb : b ≠ slash := fun hb => h.2 (by rw [hs, hb]; exact List.mem_cons_self)
    simp [isAbsolute, hb]

/-- The last byte of a part is the last byte of the path. -/
theorem getLast?_ofComponents (absolute : Bool) (hne : rest ≠ [])
    (h : ∀ part ∈ rest, IsPiece part) :
    ∃ b, (ofComponents (start absolute ++ rest)).bytes.getLast? = some b ∧ b ≠ slash := by
  obtain ⟨first, part, rfl⟩ := (List.eq_nil_or_concat' rest).resolve_left hne
  have hpart : IsPiece part := h part (by simp)
  obtain ⟨bs, b, hb⟩ := (List.eq_nil_or_concat' (spelling part)).resolve_left hpart.spelling_ne_nil
  have hslash : b ≠ slash := fun heq => hpart.2 (by simp [hb, heq])
  refine ⟨b, ?_, hslash⟩
  rw [bytes_ofComponents absolute hne h, List.map_append, List.map_singleton, hb]
  cases first with
  | nil => simp
  | cons top below =>
    rw [intercalate_append_singleton _ (by simp), ← List.cons_append, ← List.append_assoc,
      ← List.append_assoc, List.getLast?_concat]

/-- One more part goes behind a slash, unless there is one already or nothing to keep apart. -/
theorem join_ofComponents (absolute : Bool) (h : ∀ part ∈ rest, IsPiece part)
    (hpart : IsPiece part) :
    (ofComponents (start absolute ++ rest)).join ⟨spelling part⟩
      = ofComponents (start absolute ++ (rest ++ [part])) := by
  have hall : ∀ other ∈ rest ++ [part], IsPiece other := by
    simpa [or_imp, forall_and] using ⟨h, hpart⟩
  rw [join, if_neg (by simp [isAbsolute_spelling hpart])]
  change _ = Path.mk (ofComponents (start absolute ++ (rest ++ [part]))).bytes
  rw [bytes_ofComponents absolute (by simp) hall, List.map_append, List.map_singleton]
  by_cases hne : rest = []
  · subst hne
    cases absolute with
    | true => simp [start, ofComponents, Text.intercalate_cons]
    | false => simp [start, ofComponents, Text.intercalate_cons]
  · obtain ⟨b, hlast, hslash⟩ := getLast?_ofComponents absolute hne h
    rw [hlast]
    dsimp only
    rw [if_neg hslash, bytes_ofComponents absolute hne h,
      intercalate_append_singleton _ (by simpa using hne), List.append_assoc]

/-! ## Folding on the written path -/

theorem withoutIdle_nil : withoutIdle [] = [] := rfl

theorem withoutIdle_concat (pieces : List Bytes) {piece : Bytes} (h : isIdle piece = false) :
    withoutIdle (pieces ++ [piece]) = pieces ++ [piece] :=
  List.rdropWhile_concat_neg isIdle pieces piece (Bool.eq_false_iff.mp h)

theorem IsPiece.isIdle (h : IsPiece part) : isIdle (spelling part) = false := by
  rw [Path.isIdle, h.1]
  rfl

theorem parent_ofComponents (absolute : Bool) (h : ∀ part ∈ rest, IsPiece part)
    (hb : IsPiece (.name b)) :
    (ofComponents (start absolute ++ (rest ++ [.name b]))).parent
      = ofComponents (start absolute ++ rest) := by
  have hall : ∀ other ∈ rest ++ [.name b], IsPiece other := by
    simpa [or_imp, forall_and] using ⟨h, hb⟩
  have hlast : (ofComponents (start absolute ++ (rest ++ [.name b]))).components.getLast?
      = some (.name b) := by
    rw [components_ofComponents absolute hall, ← List.append_assoc, List.getLast?_concat]
  have hidle : isIdle b = false := hb.isIdle
  rw [parent, hlast]
  dsimp only
  rw [pieces_ofComponents absolute (by simp) hall, isAbsolute_ofComponents absolute hall,
    List.map_append, List.map_singleton, ← List.append_assoc, spelling,
    withoutIdle_concat _ hidle, List.dropLast_concat]
  rcases List.eq_nil_or_concat' rest with rfl | ⟨first, part, rfl⟩
  · have hdot : b ≠ [dot] := hb.spelling_ne_dot
    cases absolute with
    | true => rfl
    | false => simp [hdot, start, ofComponents, withoutIdle_nil]
  · have hpart : isIdle (spelling part) = false := (h part (by simp)).isIdle
    rw [List.map_append, List.map_singleton, ← List.append_assoc,
      withoutIdle_concat _ hpart, if_neg (by simp)]
    change _ = Path.mk (ofComponents _).bytes
    rw [bytes_ofComponents absolute (by simp) h, List.append_assoc,
      intercalate_front absolute (by simp), List.map_append, List.map_singleton]

/-- One step on the written path is one step on the stack it spells. -/
theorem foldWritten_ofComponents (hkept : Kept absolute stack) (hpart : IsPiece part) :
    foldWritten (ofComponents stack.reverse) part = ofComponents (fold stack part).reverse := by
  obtain ⟨rest, hrest, hpieces, -⟩ := hkept.exists_reverse_eq
  have hcomponents : (ofComponents stack.reverse).components = stack.reverse := by
    rw [hrest, components_ofComponents absolute hpieces]
  have hjoin : (ofComponents stack.reverse).join ⟨spelling part⟩
      = ofComponents (part :: stack).reverse := by
    rw [List.reverse_cons, hrest, List.append_assoc, join_ofComponents absolute hpieces hpart]
  cases part with
  | root => exact absurd rfl hpart.spelling_ne_nil
  | here => exact absurd hpart.1 (by decide)
  | name b => exact hjoin
  | up =>
    rw [foldWritten, hcomponents, List.getLast?_reverse]
    cases hkept with
    | root => rfl
    | ups n =>
      cases n with
      | zero => exact hjoin
      | succ n => exact hjoin
    | @name _ stack b hb hkept =>
      obtain ⟨rest, hrest, hpieces, -⟩ := hkept.exists_reverse_eq
      rw [List.reverse_cons, hrest, List.append_assoc]
      exact (parent_ofComponents absolute hpieces hb).trans (congrArg ofComponents hrest.symm)

theorem foldl_foldWritten {parts : List Component} (hkept : Kept absolute stack)
    (hparts : ∀ part ∈ parts, IsPiece part) :
    parts.foldl foldWritten (ofComponents stack.reverse)
      = ofComponents (parts.foldl fold stack).reverse := by
  induction parts generalizing stack with
  | nil => rfl
  | cons part parts ih =>
    rw [List.forall_mem_cons] at hparts
    rw [List.foldl_cons, foldWritten_ofComponents hkept hparts.1, ih (hkept.fold hparts.1) hparts.2,
      List.foldl_cons]

/-- Folding on the written path comes to the same as folding on a stack. -/
theorem foldl_foldWritten_components (p : Path) :
    p.components.foldl foldWritten ⟨[]⟩ = p.normalize := by
  have hpieces : ∀ part ∈ p.tail, IsPiece part := fun part => isPiece_of_mem_tail
  rw [foldl_components (fun _ => rfl), normalize, normalParts_eq, steps, List.foldl_append,
    List.foldl_append]
  cases p.isAbsolute with
  | true => exact foldl_foldWritten .root hpieces
  | false => exact foldl_foldWritten (.ups 0) hpieces

/-! ## Normal forms -/

/-- The bytes of a part that is a name. -/
def name? : Component → Option Bytes
  | .name b => some b
  | .root | .here | .up => none

/-- The names along a path. -/
def names (p : Path) : List Bytes := p.components.filterMap name?

/-- `q` has the parts that folding leaves of `p`, and is spelled in the one way that is normal. -/
structure IsNormalForm (p q : Path) : Prop where
  isAbsolute : q.isAbsolute = p.isAbsolute
  /-- Read again, the path has the parts that are left on the stack. -/
  components : q.components = (p.components.foldl fold []).reverse
  /-- Below the root there are names only. -/
  below_root : p.isAbsolute = true → ∃ names : List Bytes, q.components = .root :: names.map .name
  /-- From a relative start the way leads up first, if at all. -/
  above_start : p.isAbsolute = false →
    ∃ (n : Nat) (names : List Bytes), q.components = List.replicate n .up ++ names.map .name
  names : q.names.Sublist p.names
  /-- Single slashes stand between the parts. -/
  bytes : q.bytes = (if p.isAbsolute then [slash] else [])
    ++ List.intercalate [slash] ((q.components.filter (· ≠ .root)).map spelling)
  spelling : ∀ part ∈ q.components, part ≠ .root → spelling part ≠ [] ∧ slash ∉ spelling part
  /-- Only the root ends in a slash. -/
  getLast? : q.bytes.getLast? = some slash ↔ q.components = [.root]
  root : q.components = [.root] ↔ q.bytes = [slash]
  nothing : q.components = [] ↔ q.bytes = []

theorem fold_sublist (stack : List Component) (part : Component) :
    (fold stack part).reverse.Sublist (stack.reverse ++ [part]) := by
  have hkept : stack.reverse.Sublist (stack.reverse ++ [part]) := List.sublist_append_left ..
  have hpushed : (part :: stack).reverse.Sublist (stack.reverse ++ [part]) :=
    List.reverse_cons ▸ List.Sublist.refl _
  cases part with
  | here => exact hkept
  | root => exact hpushed
  | name b => exact hpushed
  | up =>
    cases stack with
    | nil => exact hpushed
    | cons top below =>
      cases top with
      | root => exact hkept
      | here => exact hpushed
      | up => exact hpushed
      | name b => exact ((List.sublist_cons_self _ below).reverse).trans hkept

/-- What is left on the stack was met in the same order. -/
theorem foldl_fold_sublist (parts stack : List Component) :
    (parts.foldl fold stack).reverse.Sublist (stack.reverse ++ parts) := by
  induction parts generalizing stack with
  | nil => rw [List.append_nil]; exact List.Sublist.refl _
  | cons part parts ih =>
    refine (ih (fold stack part)).trans ?_
    rw [← List.singleton_append, ← List.append_assoc]
    exact (fold_sublist stack part).append_right parts

/-- From the bottom up there are names, behind the root or behind nothing but `..`. -/
theorem Kept.exists_names (h : Kept absolute stack) :
    ∃ (n : Nat) (names : List Bytes),
      stack.reverse = (if absolute then [.root] else List.replicate n .up) ++ names.map .name := by
  induction h with
  | root => exact ⟨0, [], rfl⟩
  | ups n => exact ⟨n, [], by simp⟩
  | @name absolute stack b _ _ ih =>
    obtain ⟨n, names, hnames⟩ := ih
    exact ⟨n, names ++ [b], by rw [List.reverse_cons, hnames]; simp⟩

/-! ## Normalizing -/

theorem bytes_ofComponents_start (absolute : Bool) (h : ∀ part ∈ rest, IsPiece part) :
    (ofComponents (start absolute ++ rest)).bytes
      = (if absolute then [slash] else []) ++ List.intercalate [slash] (rest.map spelling) := by
  by_cases hne : rest = []
  · subst hne
    cases absolute <;> rfl
  · exact bytes_ofComponents absolute hne h

theorem IsPiece.ne_root (h : IsPiece part) : part ≠ .root := by
  rintro rfl
  exact h.spelling_ne_nil rfl

theorem filter_ne_root (absolute : Bool) (h : ∀ part ∈ rest, IsPiece part) :
    (start absolute ++ rest).filter (· ≠ .root) = rest := by
  have hrest : rest.filter (· ≠ .root) = rest :=
    List.filter_eq_self.2 fun part hpart => decide_eq_true (h part hpart).ne_root
  rw [List.filter_append, hrest]
  cases absolute <;> rfl

/-- Only the bare root is spelled with a slash at the end. -/
theorem getLast?_eq_slash_iff (absolute : Bool) (h : ∀ part ∈ rest, IsPiece part) :
    (ofComponents (start absolute ++ rest)).bytes.getLast? = some slash
      ↔ start absolute ++ rest = [.root] := by
  by_cases hne : rest = []
  · subst hne
    cases absolute <;> decide
  · obtain ⟨b, hlast, hslash⟩ := getLast?_ofComponents absolute hne h
    rw [hlast, Option.some_inj]
    refine iff_of_false hslash fun hroot => ?_
    have hrest := filter_ne_root absolute h
    rw [hroot] at hrest
    exact hne hrest.symm

theorem components_normalize (p : Path) : p.normalize.components = p.normalParts := by
  obtain ⟨rest, hrest, hpieces, -⟩ := p.kept_steps.exists_reverse_eq
  rw [normalize, normalParts_eq, hrest, components_ofComponents _ hpieces]

theorem isNormalForm_normalize (p : Path) : p.IsNormalForm p.normalize := by
  obtain ⟨n, names, hnames⟩ := p.kept_steps.exists_names
  obtain ⟨rest, hrest, hpieces, -⟩ := p.kept_steps.exists_reverse_eq
  have hparts : p.normalParts = start p.isAbsolute ++ rest := (normalParts_eq p).trans hrest
  have hcomponents := p.components_normalize
  have hsublist : p.normalParts.Sublist p.components := foldl_fold_sublist p.components []
  have hlast := getLast?_eq_slash_iff p.isAbsolute hpieces
  rw [← hparts, ← normalize, ← hcomponents] at hlast
  rw [← normalParts_eq, ← hcomponents] at hnames
  exact {
    isAbsolute := isAbsolute_normalize p
    components := hcomponents
    below_root := fun h => ⟨names, by rw [hnames, h]; rfl⟩
    above_start := fun h => ⟨n, names, by rw [hnames, h]; rfl⟩
    names := by
      rw [Path.names, hcomponents]
      exact hsublist.filterMap name?
    bytes := by
      rw [hcomponents, hparts, filter_ne_root _ hpieces, normalize, hparts,
        bytes_ofComponents_start _ hpieces]
    spelling := fun part hpart hroot => by
      rw [hcomponents, hparts] at hpart
      have hpiece : IsPiece part := by
        rw [← filter_ne_root p.isAbsolute hpieces] at hpieces
        exact hpieces part (List.mem_filter.2 ⟨hpart, decide_eq_true hroot⟩)
      exact ⟨hpiece.spelling_ne_nil, hpiece.2⟩
    getLast? := hlast
    root := by
      refine ⟨fun h => ?_, fun h => hlast.1 (by rw [h]; rfl)⟩
      rw [normalize, ← hcomponents, h]
      rfl
    nothing := by
      refine ⟨fun h => ?_, fun h => ?_⟩
      · rw [normalize, ← hcomponents, h]
        rfl
      · rw [show p.normalize = ⟨[]⟩ from congrArg Path.mk h]
        rfl
  }

/-- A path has one normal form. -/
theorem IsNormalForm.eq_normalize {p q : Path} (h : p.IsNormalForm q) : q = p.normalize := by
  have hnormal := isNormalForm_normalize p
  have hbytes : q.bytes = p.normalize.bytes := by
    rw [h.bytes, h.components, hnormal.bytes, hnormal.components]
  exact congrArg Path.mk hbytes

/-- Normalizing gives the normal form: it is what the written path comes to if each part is put
behind it or takes away from it, a second time changes nothing, and paths with the same parts come
to the same bytes. -/
theorem eq_normalize_iff_isNormalForm :
    (∀ p q : Path, q = p.normalize ↔ p.IsNormalForm q)
      ∧ (∀ p : Path, p.components.foldl foldWritten ⟨[]⟩ = p.normalize)
      ∧ (∀ p : Path, p.normalize.normalize = p.normalize)
      ∧ ∀ p q : Path, p.eqv q = true → p.normalize = q.normalize := by
  refine ⟨fun p q => ⟨?_, IsNormalForm.eq_normalize⟩, foldl_foldWritten_components,
    normalize_normalize, fun p q h => ?_⟩
  · rintro rfl
    exact isNormalForm_normalize p
  · rw [normalize, normalize, normalParts, normalParts, of_decide_eq_true h]

/-- Repeated slashes, a `.` inside and a slash at the end are lost on the normal form, and a `..`
that leads above the start is kept. -/
theorem normalize_eq_of_same_parts :
    (ofString "../a//b/../c/").eqv (ofString "../a/b/./../c") = true
      ∧ (ofString "../a//b/../c/").normalize = (ofString "../a/b/./../c").normalize
      ∧ (ofString "../a//b/../c/").IsNormalForm (ofString "../a/c") := by
  obtain ⟨hform, -, -, hsame⟩ := eq_normalize_iff_isNormalForm
  have heqv : (ofString "../a//b/../c/").eqv (ofString "../a/b/./../c") = true := by
    decide +kernel
  exact ⟨heqv, hsame _ _ heqv, (hform _ _).1 (by decide +kernel)⟩

end SolidScript.Path
