import SolidScript.Proofs.Node
import SolidScript.Proofs.Number.Digits
import SolidScript.Proofs.Script.Reader

/-!
# The statements of a model

`Node.forest` is what a model says, without the spelling of it: a list has nothing around it, so a
model is a forest of statements, the leaves of which are bodies and meshes. Numbers count as far as
their texts tell them, and a polyhedron is its points and the references to them.

The main statement is `spells_render`: the script of a model without raw text is read as its forest,
each leaf and each head as the call that stands for it (`Leaf.call`, `Head.call`).
-/

namespace SolidScript

/-- A number, as far as a script tells it. -/
abbrev Amount : Type := {t : Text // ∃ x : Binary64, x.toScript = t}

/-- A word for a transformation. -/
abbrev Keyword : Type := {t : Text // ∃ op : TransformOp, op.keyword = t}

def Binary64.amount (x : Binary64) : Amount := ⟨x.toScript, x, rfl⟩

inductive Leaf where
  | cube (size : List Amount) (center : Bool)
  | sphere (r : Amount)
  | cylinder (h rBottom rTop : Amount) (center : Bool)
  | polyhedron (points : List (List Amount)) (faces : List (List Nat))
  /-- A file, as its path is shown. -/
  | mesh (file : Text)

inductive Head where
  | union
  | difference
  | intersection
  | transform (keyword : Keyword) (params : List Amount)

def TransformOp.head (op : TransformOp) : Head :=
  .transform ⟨op.keyword, op, rfl⟩ (op.params.map Binary64.amount)

/-- The points and the references of a polyhedron. -/
def IndexedFaces.leaf (r : IndexedFaces) : Leaf :=
  .polyhedron (r.points.map fun p => [p.x.amount, p.y.amount, p.z.amount]) r.faces

namespace Node

mutual

/-- The statements of a model. Raw text counts for nothing here. -/
def forest : Node → List (Statement Leaf Head)
  | .literal _ => []
  | .list cs => forestAll cs
  | .cube size center => [.leaf (.cube [size.x.amount, size.y.amount, size.z.amount] center)]
  | .sphere r => [.leaf (.sphere r.amount)]
  | .cylinder h rTop rBottom center =>
    [.leaf (.cylinder h.amount rBottom.amount rTop.amount center)]
  | .polyhedron faces => [.leaf (indexFaces faces).leaf]
  | .union cs => [.block .union (forestAll cs)]
  | .difference parent cs => [.block .difference (parent.forest ++ forestAll cs)]
  | .intersection cs => [.block .intersection (forestAll cs)]
  | .transform op content => [.block op.head content.forest]
  | .mesh file => [.leaf (.mesh file.display)]

/-- The statements of several models, one after the other. -/
def forestAll : List Node → List (Statement Leaf Head)
  | [] => []
  | c :: cs => c.forest ++ forestAll cs

end

end Node

/-! ## Calls -/

namespace Script

/-- Items between brackets, without blanks. -/
def tuple {α : Type} (code : α → Text) (as : List α) : Text :=
  ['['] ++ List.intercalate [','] (as.map code) ++ [']']

/-- A named argument with a comma behind it. -/
def argument (name value : Text) : Text := name ++ ['='] ++ value ++ [',']

end Script

open Script (tuple argument)

/-- The last argument of the call for a mesh. -/
def Settings.convexityArgument (s : Settings) : Text :=
  match s.meshConvexity with
  | none => []
  | some n => ",convexity=".toList ++ digits n.toNat

/-- The name of the body. -/
def Leaf.word : Leaf → String
  | .cube _ _ => "cube"
  | .sphere _ => "sphere"
  | .cylinder _ _ _ _ => "cylinder"
  | .polyhedron _ _ => "polyhedron"
  | .mesh _ => "import"

/-- What stands between the round brackets, without blanks. -/
def Leaf.arguments (s : Settings) : Leaf → Text
  | .cube size center => tuple Subtype.val size ++ [','] ++ Script.flag center
  | .sphere r => r.val ++ ",$fn=".toList ++ digits s.resolution.toNat
  | .cylinder h rBottom rTop center =>
    "$fn=".toList ++ List.intercalate [','] [digits s.resolution.toNat, h.val, rBottom.val,
      rTop.val, Script.flag center]
  | .polyhedron points faces =>
    argument "points".toList (tuple (tuple Subtype.val) points)
      ++ argument "faces".toList (tuple (tuple digits) faces) ++ "convexity=10".toList
  | .mesh file => ('"' :: Quoted.encode file ++ ['"']) ++ s.convexityArgument

/-- The call that stands for a leaf, without blanks. -/
def Leaf.call (s : Settings) (l : Leaf) : Text :=
  l.word.toList ++ '(' :: (l.arguments s ++ [')'])

/-- What the block does. -/
def Head.word : Head → Text
  | .union => "union".toList
  | .difference => "difference".toList
  | .intersection => "intersection".toList
  | .transform keyword _ => keyword.val

/-- What stands between the round brackets, without blanks. -/
def Head.arguments : Head → Text
  | .union | .difference | .intersection => []
  | .transform _ params => tuple Subtype.val params

/-- What stands in front of a block, without blanks. -/
def Head.call (h : Head) : Text := h.word ++ '(' :: (h.arguments ++ [')'])

namespace Statement

variable {α β γ δ : Type}

mutual

/-- The statement with other leaves and heads. -/
def map (f : α → γ) (g : β → δ) : Statement α β → Statement γ δ
  | .leaf body => .leaf (f body)
  | .block head inside => .block (g head) (mapAll f g inside)

/-- Several statements with other leaves and heads. -/
def mapAll (f : α → γ) (g : β → δ) : List (Statement α β) → List (Statement γ δ)
  | [] => []
  | s :: ss => s.map f g :: mapAll f g ss

end

theorem mapAll_eq_map (f : α → γ) (g : β → δ) (ss : List (Statement α β)) :
    mapAll f g ss = ss.map (Statement.map f g) := by
  induction ss with
  | nil => rfl
  | cons s ss ih => rw [mapAll, ih, List.map_cons]

@[simp] theorem mapAll_append (f : α → γ) (g : β → δ) (ss ts : List (Statement α β)) :
    mapAll f g (ss ++ ts) = mapAll f g ss ++ mapAll f g ts := by
  simp only [mapAll_eq_map, List.map_append]

end Statement

/-- The statements as a script shows them. -/
def callAll (s : Settings) (ss : List (Statement Leaf Head)) : List (Statement Text Text) :=
  Statement.mapAll (Leaf.call s) Head.call ss

theorem callAll_append (s : Settings) (ss ts : List (Statement Leaf Head)) :
    callAll s (ss ++ ts) = callAll s ss ++ callAll s ts := Statement.mapAll_append _ _ ss ts

/-- The statements of several models, put together. -/
theorem flatten_forests (s : Settings) (cs : List Node) :
    (cs.map fun c => callAll s c.forest).flatten = callAll s (Node.forestAll cs) := by
  induction cs with
  | nil => rfl
  | cons c cs ih => rw [List.map_cons, List.flatten_cons, ih, Node.forestAll, callAll_append]

namespace Script

/-! ## Parts of calls -/

theorem isInk_of_isNumberChar {c : Char} (h : isNumberChar c = true) : isInk c = true := by
  -- none of the few characters that are not ink spells a number
  by_contra hink
  have hc : c = ' ' ∨ c = '\t' ∨ c = '\n' ∨ c = '\r' ∨ c = '"' ∨ c = ';' ∨ c = '\x7b'
      ∨ c = '\x7d' := by
    by_contra hne
    simp only [not_or] at hne
    exact hink (by simp [isInk, isBlank, hne])
  rcases hc with rfl | rfl | rfl | rfl | rfl | rfl | rfl | rfl <;> exact absurd h (by decide)

theorem collects_number {t : Text} (h : t.all isNumberChar = true) : Collects t t :=
  collects_ink (List.all_eq_true.mpr fun c hc =>
    isInk_of_isNumberChar (List.all_eq_true.mp h c hc))

theorem collects_toScript (x : Binary64) : Collects x.toScript x.toScript :=
  collects_number (Style.all_write .script x)

theorem collects_digits (n : Nat) : Collects (digits n) (digits n) := collects_number (all_digits n)

theorem collects_flag (b : Bool) : Collects (flag b) (flag b) :=
  collects_ink (by cases b <;> rfl)

theorem collects_comma : Collects ", ".toList [','] := collects_code rfl rfl

theorem collects_commas {ts ws : List Text} (h : List.Forall₂ Collects ts ws) :
    Collects (Text.commas ts) (List.intercalate [','] ws) := by
  induction h with
  | nil => exact Collects.nil
  | @cons t w ts ws ht hts ih =>
    cases hts with
    | nil => simpa [Text.commas] using ht
    | @cons u v ts ws hu hts =>
      have htext : Text.commas (t :: u :: ts) = t ++ (", ".toList ++ Text.commas (u :: ts)) :=
        Text.intercalate_cons_cons ", ".toList t u ts
      rw [htext, Text.intercalate_cons_cons]
      exact ht.append (collects_comma.append ih)

/-- Items between brackets. -/
theorem collects_tuple {α : Type} {text code : α → Text} {as : List α}
    (h : ∀ a ∈ as, Collects (text a) (code a)) :
    Collects ('[' :: Text.commas (as.map text) ++ [']']) (tuple code as) := by
  have hitems : List.Forall₂ Collects (as.map text) (as.map code) := by
    rw [List.forall₂_map_left_iff, List.forall₂_map_right_iff, List.forall₂_same]
    exact h
  exact ((collects_ink (t := ['[']) rfl).append (collects_commas hitems)).append
    (collects_ink (t := [']']) rfl)

theorem collects_vector (xs : List Binary64) :
    Collects (vector xs) (tuple Subtype.val (xs.map Binary64.amount)) := by
  have htuple : Collects (vector xs) (tuple Binary64.toScript xs) :=
    collects_tuple fun x _ => collects_toScript x
  rw [tuple, List.map_map]
  exact htuple

/-- The section of a named list is one argument of a call. -/
theorem collects_listSection (name : String) (hname : name.toList.all isInk = true) {body w : Text}
    (h : Collects body w) :
    Collects (listSection name body) (argument name.toList (['['] ++ w ++ [']'])) := by
  have hblanks (depth : Nat) : Collects (Text.indentation depth) [] :=
    collects_blanks (List.all_eq_true.mpr fun c hc => by
      rw [(List.mem_replicate.mp hc).2]
      rfl)
  have hopen : Collects " = [\n".toList (['='] ++ ['[']) :=
    collects_code rfl rfl
  have hclose : Collects "],\n".toList ([']'] ++ [',']) :=
    collects_code rfl rfl
  have hline : Collects ['\n'] [] :=
    collects_code rfl rfl
  have hbody : Collects (if body.isEmpty then [] else Text.indentation 2 ++ body ++ ['\n']) w := by
    split
    next hempty => rwa [List.isEmpty_iff.mp hempty] at h
    next =>
      have := ((hblanks 2).append h).append hline
      rwa [List.nil_append, List.append_nil] at this
  have hall := (((((hblanks 1).append (collects_ink hname)).append hopen).append hbody).append
    (hblanks 1)).append hclose
  simp only [List.nil_append, List.append_nil, List.append_assoc] at hall
  simpa only [listSection, argument, List.append_assoc] using hall

/-! ## Leaves -/

variable (s : Settings)

/-- A call with its arguments and a semicolon behind it is a leaf. -/
theorem spells_call {l : Leaf} {t u : Text} (ht : Collects t (l.word.toList ++ ['(']))
    (hu : Collects u (l.arguments s)) : Spells (t ++ (u ++ ");".toList)) [.leaf (l.call s)] := by
  have hclose : Collects [')'] [')'] := collects_ink rfl
  have hcall : Collects (t ++ (u ++ [')'])) (l.call s) := by
    have hparts := ht.append (hu.append hclose)
    rwa [List.append_assoc] at hparts
  have hleaf := hcall.leaf (by simp [Leaf.call])
  rwa [List.append_assoc, List.append_assoc] at hleaf

theorem spells_cube (size : Vec3) (center : Bool) :
    Spells (cube size center)
      [.leaf (Leaf.call s (.cube [size.x.amount, size.y.amount, size.z.amount] center))] := by
  have harguments := ((collects_vector [size.x, size.y, size.z]).append collects_comma).append
    (collects_flag center)
  have hword : Collects "cube(".toList ("cube".toList ++ ['(']) := collects_code rfl rfl
  have hcall := spells_call s (l := .cube [size.x.amount, size.y.amount, size.z.amount] center)
    hword harguments
  unfold cube
  simpa only [List.append_assoc] using hcall

theorem spells_sphere (r : Binary64) :
    Spells (sphere s r) [.leaf (Leaf.call s (.sphere r.amount))] := by
  have hfn : Collects ", $fn=".toList ",$fn=".toList := collects_code rfl rfl
  have harguments := ((collects_toScript r).append hfn).append
    (collects_digits s.resolution.toNat)
  have hword : Collects "sphere(".toList ("sphere".toList ++ ['(']) := collects_code rfl rfl
  have hcall := spells_call s (l := .sphere r.amount) hword harguments
  unfold sphere
  simpa only [List.append_assoc] using hcall

theorem spells_cylinder (h rTop rBottom : Binary64) (center : Bool) :
    Spells (cylinder s h rTop rBottom center)
      [.leaf (Leaf.call s (.cylinder h.amount rBottom.amount rTop.amount center))] := by
  have hfn : Collects "$fn = ".toList "$fn=".toList := collects_code rfl rfl
  have hitems := collects_commas (.cons (collects_digits s.resolution.toNat)
    (.cons (collects_toScript h) (.cons (collects_toScript rBottom)
      (.cons (collects_toScript rTop) (.cons (collects_flag center) .nil)))))
  have hword : Collects "cylinder(".toList ("cylinder".toList ++ ['(']) := collects_code rfl rfl
  have hcall := spells_call s (l := .cylinder h.amount rBottom.amount rTop.amount center) hword
    (hfn.append hitems)
  have hopen : "cylinder($fn = ".toList = "cylinder(".toList ++ "$fn = ".toList := rfl
  unfold cylinder
  simpa only [hopen, List.append_assoc] using hcall

theorem spells_polyhedron (faces : List Face) :
    Spells (polyhedron faces) [.leaf (Leaf.call s (indexFaces faces).leaf)] := by
  generalize hr : indexFaces faces = r
  have hpoints : Collects (Text.commas (r.points.map fun p => vector [p.x, p.y, p.z]))
      (List.intercalate [','] ((r.points.map fun p => [p.x.amount, p.y.amount, p.z.amount]).map
        (tuple Subtype.val))) := by
    apply collects_commas
    rw [List.map_map, List.forall₂_map_left_iff, List.forall₂_map_right_iff, List.forall₂_same]
    exact fun p _ => collects_vector [p.x, p.y, p.z]
  have hsides : Collects
      (Text.commas (r.faces.map fun face => '[' :: Text.commas (face.map digits) ++ [']']))
      (List.intercalate [','] (r.faces.map (tuple digits))) := by
    apply collects_commas
    rw [List.forall₂_map_left_iff, List.forall₂_map_right_iff, List.forall₂_same]
    exact fun face _ => collects_tuple fun n _ => collects_digits n
  have hconvexity : Collects "convexity = 10".toList "convexity=10".toList :=
    collects_code rfl rfl
  have harguments := ((collects_listSection "points" rfl hpoints).append
    (collects_listSection "faces" rfl hsides)).append hconvexity
  have hword : Collects "polyhedron(\n".toList ("polyhedron".toList ++ ['(']) :=
    collects_code rfl rfl
  have hcall := spells_call s (l := r.leaf) hword harguments
  have hend : "convexity = 10);".toList = "convexity = 10".toList ++ ");".toList := rfl
  unfold polyhedron
  simpa only [hr, hend, List.append_assoc] using hcall

theorem spells_mesh (file : Path) :
    Spells (mesh s file) [.leaf (Leaf.call s (.mesh file.display))] := by
  have hconvexity : Collects (match s.meshConvexity with
      | none => []
      | some n => ", convexity = ".toList ++ digits n.toNat) s.convexityArgument := by
    have hword : Collects ", convexity = ".toList ",convexity=".toList := collects_code rfl rfl
    rw [Settings.convexityArgument]
    cases s.meshConvexity with
    | none => exact Collects.nil
    | some n => exact hword.append (collects_digits n.toNat)
  have hword : Collects "import(".toList ("import".toList ++ ['(']) := collects_code rfl rfl
  have hcall := spells_call s (l := .mesh file.display) hword
    ((collects_quoted file.display).append hconvexity)
  have hopen : "import(\"".toList = "import(".toList ++ ['"'] := rfl
  unfold mesh
  rw [hopen]
  simp only [List.append_assoc, List.cons_append, List.nil_append] at hcall ⊢
  exact hcall

theorem collects_head (op : TransformOp) : Collects (transformHead op) op.head.call := by
  have hword : Collects op.keyword op.keyword := by
    cases op <;> exact collects_code rfl rfl
  have hopen : Collects ['('] ['('] := collects_ink rfl
  have hclose : Collects [')'] [')'] := collects_ink rfl
  have hcall := hword.append (hopen.append ((collects_vector op.params).append hclose))
  rw [transformHead, List.append_assoc]
  exact hcall

/-! ## Models -/

mutual

/-- A model without raw text is read as its forest. -/
theorem spells_render : ∀ m : Node, m.isLiteralFree = true →
    Spells (m.render s) (callAll s m.forest)
  | .literal _, h => by cases h
  | .list cs, h => by
    rw [Node.render, Node.forest, ← flatten_forests]
    exact Spells.join (forall₂_spells cs h)
  | .cube size center, _ => spells_cube s size center
  | .sphere r, _ => spells_sphere s r
  | .cylinder h rTop rBottom center, _ => spells_cylinder s h rTop rBottom center
  | .polyhedron faces, _ => spells_polyhedron s faces
  | .union cs, h => by
    have hparts := forall₂_spells cs h
    have hblock := Spells.block (collects_ink (t := "union()".toList) rfl) hparts
    rwa [flatten_forests] at hblock
  | .difference parent cs, h => by
    rw [Node.isLiteralFree, Bool.and_eq_true] at h
    have hparts := List.Forall₂.cons (spells_render parent h.1) (forall₂_spells cs h.2)
    have hblock := Spells.block (collects_ink (t := "difference()".toList) rfl) hparts
    rwa [List.flatten_cons, flatten_forests, ← callAll_append] at hblock
  | .intersection cs, h => by
    have hparts := forall₂_spells cs h
    have hblock := Spells.block (collects_ink (t := "intersection()".toList) rfl) hparts
    rwa [flatten_forests] at hblock
  | .transform op content, h => by
    have hparts := List.Forall₂.cons (spells_render content h) .nil
    have hblock := Spells.block (collects_head op) hparts
    rwa [List.flatten_cons, List.flatten_nil, List.append_nil] at hblock
  | .mesh file, _ => spells_mesh s file

theorem forall₂_spells : ∀ cs : List Node, Node.areLiteralFree cs = true →
    List.Forall₂ Spells (Node.renderAll s cs) (cs.map fun c => callAll s c.forest)
  | [], _ => .nil
  | c :: cs, h => by
    rw [Node.areLiteralFree, Bool.and_eq_true] at h
    exact .cons (spells_render c h.1) (forall₂_spells cs h.2)

end

end Script

end SolidScript
