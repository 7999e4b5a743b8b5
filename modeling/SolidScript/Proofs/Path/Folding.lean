import Mathlib.Data.List.Induction
import SolidScript.Path.Resolve
import SolidScript.Proofs.Path.Spelling

/-!
# Folding paths

To fold the parts of a path onto a stack is to fold what is left of them onto it
(`foldl_fold_folded`): what a `..` takes away inside a path it takes away wherever the path is
followed from. So a path may be folded before it is joined to another or after, once or twice
(`normalize_join`), and a path may be resolved early, late, or again (`resolve_early_or_late`).

The parts that are left are `Kept`: names, below them the root or the `..`s that lead above a
relative start.
-/

namespace SolidScript.Path

/-! ## Stacks -/

theorem foldl_fold_folded (parts stack : List Component) :
    ((parts.foldl fold []).reverse).foldl fold stack = parts.foldl fold stack := by
  induction parts using List.reverseRecOn with
  | nil => rfl
  | append_singleton parts part ih =>
    rw [List.foldl_append, List.foldl_append, ← ih]
    generalize parts.foldl fold [] = left
    cases part with
    | root => simp [fold]
    | here => rfl
    | name b => simp [fold]
    | up =>
      -- what is taken away is the last part that was kept, whatever lies below it
      cases left with
      | nil => rfl
      | cons top below => cases top <;> simp [fold]

/-- A stack of kept parts, the last on top: names, and below them the root or nothing but `..`. -/
inductive Kept : Bool → List Component → Prop
  | root : Kept true [.root]
  | ups (n : Nat) : Kept false (List.replicate n .up)
  | name {absolute : Bool} {stack : List Component} {b : Bytes} :
      IsPiece (.name b) → Kept absolute stack → Kept absolute (.name b :: stack)

namespace Kept

variable {absolute : Bool} {stack : List Component}

theorem fold (h : Kept absolute stack) {part : Component} (hpart : IsPiece part) :
    Kept absolute (fold stack part) := by
  cases part with
  | root => exact absurd rfl hpart.spelling_ne_nil
  | here => exact absurd hpart.1 (by decide)
  | name b => exact .name hpart h
  | up =>
    cases h with
    | root => exact .root
    | ups n =>
      cases n with
      | zero => exact .ups 1
      | succ n => exact .ups (n + 2)
    | name _ h => exact h

theorem foldl (h : Kept absolute stack) {parts : List Component}
    (hparts : ∀ part ∈ parts, IsPiece part) : Kept absolute (parts.foldl Path.fold stack) := by
  induction parts generalizing stack with
  | nil => exact h
  | cons part parts ih =>
    rw [List.forall_mem_cons] at hparts
    exact ih (h.fold hparts.1) hparts.2

/-- From the bottom up, a stack of kept parts can be spelled as a path. -/
theorem exists_reverse_eq (h : Kept absolute stack) :
    ∃ rest, stack.reverse = start absolute ++ rest ∧ (∀ part ∈ rest, IsPiece part)
      ∧ (absolute = true → .up ∉ rest) := by
  induction h with
  | root => exact ⟨[], rfl, by simp, by simp⟩
  | ups n =>
    refine ⟨List.replicate n .up, List.reverse_replicate .., ?_, by simp⟩
    intro part hpart
    rw [List.eq_of_mem_replicate hpart]
    exact isPiece_up
  | @name absolute stack b hb _ ih =>
    obtain ⟨rest, hrest, hpieces, hup⟩ := ih
    refine ⟨rest ++ [.name b], by rw [List.reverse_cons, hrest, List.append_assoc], ?_, ?_⟩
    · simpa [or_imp, forall_and] using ⟨hpieces, hb⟩
    · simpa using hup

end Kept

/-! ## Normal paths -/

theorem normalParts_eq (p : Path) : p.normalParts = (p.steps.foldl fold []).reverse := by
  rw [normalParts, foldl_components fun _ => rfl]

/-- Folding leaves kept parts, below the root if the path starts there. -/
theorem kept_steps (p : Path) : Kept p.isAbsolute (p.steps.foldl fold []) := by
  rw [steps, List.foldl_append]
  refine Kept.foldl ?_ fun part => isPiece_of_mem_tail
  cases p.isAbsolute with
  | true => exact .root
  | false => exact .ups 0

theorem isAbsolute_normalize (p : Path) : p.normalize.isAbsolute = p.isAbsolute := by
  obtain ⟨rest, hrest, hpieces, -⟩ := p.kept_steps.exists_reverse_eq
  rw [normalize, normalParts_eq, hrest, isAbsolute_ofComponents _ hpieces]

theorem steps_normalize (p : Path) : p.normalize.steps = p.normalParts := by
  obtain ⟨rest, hrest, hpieces, -⟩ := p.kept_steps.exists_reverse_eq
  rw [normalize, normalParts_eq, hrest, steps_ofComponents _ hpieces]

/-- A path may be folded before it is followed. -/
theorem foldl_steps_normalize (p : Path) (stack : List Component) :
    p.normalize.steps.foldl fold stack = p.steps.foldl fold stack := by
  rw [steps_normalize, normalParts_eq, foldl_fold_folded]

theorem normalize_congr {p q : Path} (h : p.steps.foldl fold [] = q.steps.foldl fold []) :
    p.normalize = q.normalize := by
  rw [normalize, normalize, normalParts_eq, normalParts_eq, h]

theorem normalize_normalize (p : Path) : p.normalize.normalize = p.normalize :=
  normalize_congr (foldl_steps_normalize p [])

/-- Paths may be folded before they are joined. -/
theorem normalize_join (p q : Path) :
    (p.join q).normalize = (p.normalize.join q.normalize).normalize := by
  cases hq : q.isAbsolute with
  | true =>
    rw [join_of_isAbsolute p hq,
      join_of_isAbsolute p.normalize ((isAbsolute_normalize q).trans hq), normalize_normalize]
  | false =>
    refine normalize_congr ?_
    rw [steps_join p hq, steps_join p.normalize ((isAbsolute_normalize q).trans hq),
      List.foldl_append, List.foldl_append, foldl_steps_normalize, foldl_steps_normalize]

theorem normalize_join_normalize (p q : Path) :
    (p.join q.normalize).normalize = (p.join q).normalize := by
  rw [normalize_join, normalize_normalize, ← normalize_join]

/-- No stretch between slashes is `.` or `..`. -/
def IsPlain (p : Path) : Prop := ∀ piece ∈ pieces p.bytes, piece ≠ [dot] ∧ piece ≠ [dot, dot]

/-- What is folded from the root holds neither `.` nor `..`. -/
theorem isPlain_normalize {p : Path} (h : p.isAbsolute = true) : p.normalize.IsPlain := by
  obtain ⟨rest, hrest, hpieces, hup⟩ := p.kept_steps.exists_reverse_eq
  rw [IsPlain, normalize, normalParts_eq, hrest]
  intro piece hmem
  rcases mem_pieces_ofComponents _ hpieces hmem with rfl | ⟨part, hpart, rfl⟩
  · decide
  · have hname := (hpieces part hpart).1
    refine ⟨fun heq => ?_, fun heq => ?_⟩
    · rw [heq] at hname
      simp [component?] at hname
    · rw [heq] at hname
      obtain rfl : .up = part := Option.some.inj hname
      exact hup h hpart

theorem IsPlain.notMem_components {p : Path} (h : p.IsPlain) :
    .here ∉ p.components ∧ .up ∉ p.components := by
  have hhere : .here ∉ p.tail := fun hmem => (h _ (spelling_mem_pieces hmem)).1 rfl
  have hup : .up ∉ p.tail := fun hmem => (h _ (spelling_mem_pieces hmem)).2 rfl
  have hhead : (pieces p.bytes).head? ≠ some [dot] := by
    intro heq
    obtain ⟨rest, hrest⟩ := List.head?_eq_some_iff.mp heq
    exact (h [dot] (hrest ▸ List.mem_cons_self)).1 rfl
  rw [components_eq_steps hhead, steps, start]
  split <;> simp [hhere, hup]

/-! ## Resolving -/

/-- Under a directory that can be read a path is what the two come to together. -/
theorem resolve_ok (dir p : Path) : p.resolve (.ok dir) = (dir.join p).normalize := by
  rw [resolve]
  split
  next h => rw [join_of_isAbsolute dir h]
  next => rfl

theorem resolve_error (cause : OsError) (p : Path) : p.resolve (.error cause) = p.normalize :=
  ite_self _

theorem resolve_of_isAbsolute (currentDir : Except OsError Path) {p : Path}
    (h : p.isAbsolute = true) : p.resolve currentDir = p.normalize := if_pos h

theorem isAbsolute_join_of_left {dir : Path} (h : dir.isAbsolute = true) (p : Path) :
    (dir.join p).isAbsolute = true := by
  cases hp : p.isAbsolute with
  | true => rw [join_of_isAbsolute dir hp, hp]
  | false => rw [isAbsolute_join dir hp, h]

/-- Folding goes together with joining, so a path comes to the same file whether it is resolved
early, late, or twice. Under an absolute directory it becomes absolute, free of `.` and `..`, and
the same from everywhere; and where the directory could not be read at first, nothing is lost for a
later time when it can. -/
theorem resolve_early_or_late :
    (∀ p q : Path, (p.join q).normalize = (p.normalize.join q.normalize).normalize)
      ∧ ∀ dir p : Path, dir.isAbsolute = true →
        (p.resolve (.ok dir)).isAbsolute = true
          ∧ (p.resolve (.ok dir)).IsPlain
          ∧ (.here ∉ (p.resolve (.ok dir)).components ∧ .up ∉ (p.resolve (.ok dir)).components)
          ∧ (∀ currentDir : Except OsError Path,
              (p.resolve (.ok dir)).resolve currentDir = p.resolve (.ok dir))
          ∧ ∀ cause : OsError,
              (p.resolve (.error cause)).resolve (.ok dir) = p.resolve (.ok dir) := by
  refine ⟨normalize_join, fun dir p hdir => ?_⟩
  have habsolute := isAbsolute_join_of_left hdir p
  have hplain := isPlain_normalize habsolute
  have hresolved := (isAbsolute_normalize (dir.join p)).trans habsolute
  rw [resolve_ok]
  refine ⟨hresolved, hplain, hplain.notMem_components, fun currentDir => ?_, fun cause => ?_⟩
  · rw [resolve_of_isAbsolute currentDir hresolved, normalize_normalize]
  · rw [resolve_error, resolve_ok, normalize_join_normalize]

/-- Resolved without a directory, `../b/./c` keeps its `..`, which takes `ada` away later. -/
theorem resolve_late_of_up :
    (ofString "/home/ada").isAbsolute = true
      ∧ (ofString "../b/./c").resolve (.error .notFound) = ofString "../b/c"
      ∧ ((ofString "../b/./c").resolve (.error .notFound)).resolve (.ok (ofString "/home/ada"))
        = ofString "/home/b/c" := by
  have hdir : (ofString "/home/ada").isAbsolute = true := by decide +kernel
  obtain ⟨-, -, -, -, hlate⟩ :=
    resolve_early_or_late.2 (ofString "/home/ada") (ofString "../b/./c") hdir
  refine ⟨hdir, by decide +kernel, ?_⟩
  rw [hlate]
  decide +kernel

end SolidScript.Path
