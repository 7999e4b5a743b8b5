import SolidScript.Number.Binary64.Lemmas
import SolidScript.Proofs.Node.Map
import SolidScript.Proofs.Path.NormalForm

/-!
# Equality of models

Equal models are one model but for the spelling of their numbers and files: there are two zeros, and
a path can be written with idle slashes and dots. `Node.tidy` takes every model to the one that has
a single spelling of each. Models are equal exactly if they are tidied to the same model and none of
their numbers is a NaN (`Node.eqv_iff`). So equality is symmetric and transitive, and it is
reflexive on the models without a NaN.
-/

namespace SolidScript

/-! ## Numbers in one spelling -/

namespace Binary64

/-- The number with both zeros taken to the positive one. -/
def unsigned (x : Binary64) : Binary64 := ⟨x.key⟩

theorem eqv_iff (x y : Binary64) : x.eqv y = true ↔ x.unsigned = y.unsigned ∧ x.isNaN = false := by
  rw [unsigned, unsigned, mk.injEq, key_eq_iff]
  constructor
  · intro h
    refine ⟨.inl h, ?_⟩
    rw [eqv, Bool.and_eq_true, Bool.and_eq_true, Bool.not_eq_true'] at h
    exact h.1.1
  · rintro ⟨heqv | rfl, hnan⟩
    · exact heqv
    · simp [eqv, hnan]

theorem isZero_unsigned (x : Binary64) : x.unsigned.isZero = x.isZero := by
  rw [unsigned, key]
  split
  next h => rw [h]; rfl
  next => rfl

theorem key_unsigned (x : Binary64) : x.unsigned.key = x.key := by
  rw [key, isZero_unsigned, unsigned, key]
  split <;> rfl

theorem isNaN_unsigned (x : Binary64) : x.unsigned.isNaN = x.isNaN := by
  by_cases h : x.isZero = true
  · rw [isNaN_of_isZero h, isNaN_of_isZero (x.isZero_unsigned.trans h)]
  · rw [unsigned, key, if_neg h]

/-- Only a negative zero is spelled in another way. -/
theorem unsigned_eq_self {x : Binary64} (h : ¬(x.isZero = true ∧ x.isNegative = true)) :
    x.unsigned = x := by
  rw [unsigned, key]
  split
  next hzero =>
    have hword : x.word = 0 := by
      have := x.word_lt
      simp only [isZero, isNegative, decide_eq_true_eq] at hzero h
      omega
    have hbits : x.bits = 0 := UInt64.toNat_inj.mp hword
    rw [← hbits]
  next => rfl

end Binary64

/-! ## Files in one spelling -/

namespace Path

/-- A relative path that starts with `.` is spelled so. -/
theorem components_ofComponents_here {rest : List Component} (h : ∀ part ∈ rest, IsPiece part) :
    (ofComponents (.here :: rest)).components = .here :: rest := by
  have hslash : ∀ l ∈ [dot] :: rest.map spelling, slash ∉ l := by
    refine List.forall_mem_cons.mpr ⟨by decide, ?_⟩
    simpa using fun part hpart => (h part hpart).2
  have hpieces : pieces (ofComponents (.here :: rest)).bytes = [dot] :: rest.map spelling :=
    pieces_intercalate (List.cons_ne_nil _ _) hslash
  have hhead : (ofComponents (.here :: rest)).bytes.head? = some dot := by
    show (List.intercalate [slash] ([dot] :: rest.map spelling)).head? = some dot
    rw [Text.intercalate_cons]
    rfl
  have habsolute : (ofComponents (.here :: rest)).isAbsolute = false := by
    rw [isAbsolute, hhead]
    rfl
  rw [components, hpieces, habsolute, List.head?_cons, if_neg Bool.false_ne_true, if_pos rfl,
    List.filterMap_cons_none (by rfl), filterMap_spelling h]

theorem components_cases (p : Path) :
    p.components = p.steps ∨ p.components = .here :: p.tail := by
  rw [components, steps, start]
  split
  next => exact .inl rfl
  next =>
    split
    next => exact .inr rfl
    next => exact .inl rfl

/-- The path with its parts written one after the other. -/
def tidy (p : Path) : Path := ofComponents p.components

theorem components_tidy (p : Path) : p.tidy.components = p.components := by
  rw [tidy]
  rcases p.components_cases with hsteps | hhere
  · rw [hsteps]
    exact components_ofComponents p.isAbsolute fun _ => isPiece_of_mem_tail
  · rw [hhere]
    exact components_ofComponents_here fun _ => isPiece_of_mem_tail

theorem eqv_iff (p q : Path) : p.eqv q = true ↔ p.tidy = q.tidy := by
  rw [eqv, decide_eq_true_eq]
  constructor
  · intro h
    rw [tidy, h, tidy]
  · intro h
    rw [← components_tidy p, h, components_tidy]

theorem tidy_normalize (p : Path) : p.normalize.tidy = p.normalize := by
  rw [tidy, components_normalize]
  rfl

end Path

/-! ## Values below a node -/

theorem Vec3.eqv_iff (v w : Vec3) : v.eqv w = true ↔
    v.map .unsigned = w.map .unsigned ∧ ∀ x ∈ v.numbers, x.isNaN = false := by
  simp only [eqv, Bool.and_eq_true, Binary64.eqv_iff, map, mk.injEq, numbers, List.forall_mem_cons]
  tauto

theorem Point.eqv_iff (p q : Point) : p.eqv q = true ↔
    p.map .unsigned = q.map .unsigned ∧ ∀ x ∈ p.numbers, x.isNaN = false := by
  simp only [eqv, Bool.and_eq_true, Binary64.eqv_iff, map, mk.injEq, numbers, List.forall_mem_cons]
  tauto

theorem Rgba.eqv_iff (c d : Rgba) : c.eqv d = true ↔
    c.map .unsigned = d.map .unsigned ∧ ∀ x ∈ [c.r, c.g, c.b, c.a], x.isNaN = false := by
  simp only [eqv, Bool.and_eq_true, Binary64.eqv_iff, map, mk.injEq, List.forall_mem_cons]
  tauto

/-- Lists are equal if they are alike where their items are equal if these are alike. -/
theorem listEqv_iff {α : Type} {eqv : α → α → Bool} {tidy : α → α} {numbers : α → List Binary64}
    {as : List α} (h : ∀ a ∈ as, ∀ b, eqv a b = true ↔
      tidy a = tidy b ∧ ∀ x ∈ numbers a, x.isNaN = false) (bs : List α) :
    listEqv eqv as bs = true ↔
      as.map tidy = bs.map tidy ∧ ∀ x ∈ as.flatMap numbers, x.isNaN = false := by
  induction as generalizing bs with
  | nil => cases bs <;> simp [listEqv]
  | cons a as ih =>
    rw [List.forall_mem_cons] at h
    cases bs with
    | nil => simp [listEqv]
    | cons b bs =>
      rw [listEqv, Bool.and_eq_true, h.1, ih h.2, List.map_cons, List.map_cons, List.cons.injEq,
        List.flatMap_cons, List.forall_mem_append]
      exact and_and_and_comm

theorem Face.eqv_iff (face other : Face) : face.eqv other = true ↔
    face.map .unsigned = other.map .unsigned ∧ ∀ x ∈ face.numbers, x.isNaN = false := by
  rw [eqv, listEqv_iff fun p _ => p.eqv_iff, map, map, mk.injEq, numbers]

theorem TransformOp.eqv_iff (op other : TransformOp) : op.eqv other = true ↔
    op.map .unsigned = other.map .unsigned ∧ ∀ x ∈ op.params, x.isNaN = false := by
  cases op <;> cases other
  case color.color c d =>
    rw [map, map, color.injEq]
    exact c.eqv_iff d
  case scale.scale v w | resize.resize v w | rotate.rotate v w | translate.translate v w
      | mirror.mirror v w =>
    simp only [map, scale.injEq, resize.injEq, rotate.injEq, translate.injEq, mirror.injEq]
    exact v.eqv_iff w
  all_goals
    refine iff_of_false Bool.false_ne_true fun h => ?_
    cases h.1

/-! ## Models -/

namespace Node

/-- The model with a single spelling of each number and each file. -/
def tidy (m : Node) : Node := m.map .unsigned .tidy

theorem eqvAll_eq_listEqv (cs ds : List Node) : eqvAll cs ds = listEqv eqv cs ds := by
  induction cs generalizing ds with
  | nil => cases ds <;> rfl
  | cons c cs ih =>
    cases ds with
    | nil => rfl
    | cons d ds => rw [eqvAll, listEqv, ih]

/-- Models are equal if they are the same model but for the spelling, and have no NaN. -/
theorem eqv_iff (a b : Node) :
    a.eqv b = true ↔ a.tidy = b.tidy ∧ ∀ x ∈ a.numbers, x.isNaN = false := by
  induction a using induction generalizing b with
  | step a ih =>
    have hall {cs : List Node} (h : ∀ c ∈ cs, c ∈ a.children) (ds : List Node) :
        eqvAll cs ds = true ↔ mapAll .unsigned .tidy cs = mapAll .unsigned .tidy ds
          ∧ ∀ x ∈ cs.flatMap numbers, x.isNaN = false := by
      rw [eqvAll_eq_listEqv, mapAll_eq_map, mapAll_eq_map]
      exact listEqv_iff (fun c hc => ih c (h c hc)) ds
    rw [tidy, tidy, numbers_eq]
    cases a <;> cases b
    case list.list cs ds =>
      rw [map, map, list.injEq]
      exact hall (fun _ => id) ds
    case union.union cs ds =>
      rw [map, map, union.injEq]
      exact hall (fun _ => id) ds
    case intersection.intersection cs ds =>
      rw [map, map, intersection.injEq]
      exact hall (fun _ => id) ds
    case difference.difference p cs q ds =>
      have hnumbers : (difference p cs).ownNumbers ++ (difference p cs).children.flatMap numbers
          = p.numbers ++ cs.flatMap numbers := rfl
      rw [map, map, difference.injEq, hnumbers, eqv, Bool.and_eq_true, ih p List.mem_cons_self,
        hall (fun _ => List.mem_cons_of_mem p), List.forall_mem_append]
      exact and_and_and_comm
    case transform.transform op c op' d =>
      rw [map, map, transform.injEq, eqv, Bool.and_eq_true, op.eqv_iff, ih c List.mem_cons_self,
        children, List.flatMap_singleton, ownNumbers, List.forall_mem_append]
      exact and_and_and_comm
    case literal.literal t u => simp [eqv, map, ownNumbers, children]
    case cube.cube v center w center' =>
      simp only [eqv, map, cube.injEq, ownNumbers, children, v.eqv_iff, Bool.and_eq_true,
        decide_eq_true_eq, List.flatMap_nil, List.append_nil]
      tauto
    case sphere.sphere r r' => simp [eqv, map, ownNumbers, children, Binary64.eqv_iff]
    case cylinder.cylinder h t b center h' t' b' center' =>
      simp only [eqv, map, cylinder.injEq, ownNumbers, children, Binary64.eqv_iff,
        Bool.and_eq_true, decide_eq_true_eq, List.flatMap_nil, List.append_nil,
        List.forall_mem_cons]
      tauto
    case polyhedron.polyhedron fs gs =>
      rw [eqv, listEqv_iff fun face _ => face.eqv_iff, map, map, polyhedron.injEq]
      simp [ownNumbers, children]
    case mesh.mesh p q => simp [eqv, map, ownNumbers, children, Path.eqv_iff]
    -- models of two kinds are neither equal nor tidied to one model
    all_goals
      refine iff_of_false Bool.false_ne_true fun h => ?_
      cases h.1

theorem count_tidy (m : Node) : m.tidy.count = m.count := count_map m

/-- Tidying a model makes no number a NaN that was none before. -/
theorem forall_isNaN_tidy_iff (m : Node) :
    (∀ x ∈ m.tidy.numbers, x.isNaN = false) ↔ ∀ x ∈ m.numbers, x.isNaN = false := by
  rw [tidy, numbers_map, List.forall_mem_map]
  simp only [Binary64.isNaN_unsigned]

theorem eqv_symm {a b : Node} (h : a.eqv b = true) : b.eqv a = true := by
  obtain ⟨htidy, hnan⟩ := (eqv_iff a b).mp h
  refine (eqv_iff b a).mpr ⟨htidy.symm, ?_⟩
  rwa [← forall_isNaN_tidy_iff, ← htidy, forall_isNaN_tidy_iff]

theorem eqv_trans {a b c : Node} (h : a.eqv b = true) (h' : b.eqv c = true) : a.eqv c = true := by
  obtain ⟨htidy, hnan⟩ := (eqv_iff a b).mp h
  exact (eqv_iff a c).mpr ⟨htidy.trans ((eqv_iff b c).mp h').1, hnan⟩

theorem eqv_self_iff (a : Node) : a.eqv a = true ↔ ∀ x ∈ a.numbers, x.isNaN = false := by
  rw [eqv_iff, and_iff_right rfl]

/-- The model has no negative zero, and its files are normal forms of paths. -/
structure IsTidy (m : Node) : Prop where
  numbers : ∀ x ∈ m.numbers, ¬(x.isZero = true ∧ x.isNegative = true)
  files : ∀ p ∈ m.files, ∃ q : Path, p = q.normalize

theorem IsTidy.tidy_eq {m : Node} (h : m.IsTidy) : m.tidy = m := by
  refine map_eq_self_of_forall (fun x hx => Binary64.unsigned_eq_self (h.numbers x hx)) ?_
  intro p hp
  obtain ⟨q, rfl⟩ := h.files p hp
  exact q.tidy_normalize

/-- Models with a single spelling are equal only if they are the same. -/
theorem IsTidy.eq_of_eqv {a b : Node} (ha : a.IsTidy) (hb : b.IsTidy) (h : a.eqv b = true) :
    a = b := by
  rw [← ha.tidy_eq, ((eqv_iff a b).mp h).1, hb.tidy_eq]

/-! ## Polyhedra -/

/-- What stands for the corners of the polyhedra of a model, face by face. -/
def references (m : Node) : List (List (List Nat)) :=
  m.polyhedra.map fun faces => (indexFaces faces).faces

theorem references_tidy (m : Node) : m.tidy.references = m.references := by
  rw [references, references, tidy, polyhedra_map, List.map_map]
  refine List.map_congr_left fun faces _ => ?_
  rw [Function.comp_apply, indexFaces_map Binary64.key_unsigned]

end Node

end SolidScript
