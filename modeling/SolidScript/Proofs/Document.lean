import SolidScript.Document
import SolidScript.Proofs.Json.ReadBack
import SolidScript.Proofs.Node.Map
import SolidScript.Proofs.Text.Utf8

/-!
# Models in documents

A model whose mesh files have paths that are texts can be written, and its text is read exactly if
all of its numbers are finite and its brackets are not too many. What is read is the model with its
numbers read again from their digits (`Node.reread`), so it is the very same model exactly if the
numbers are read back (`Node.parse_written_iff`).

The value that a model is written as fits the shape that is read, it is taken back as the model, and
it holds the numbers of the model in their order (`Node.IsWritten`). The value of the model with
other numbers is the value with these numbers (`Node.toJson?_map`).
-/

namespace SolidScript

open Document (entry entries variants)

/-! ## Values below a node -/

theorem mapM_map_some {α β : Type} {f : α → β} {g : β → Option α} (h : ∀ a, g (f a) = some a)
    (as : List α) : (as.map f).mapM g = some as := by
  induction as with
  | nil => rfl
  | cons a as ih => simp [h, ih]

theorem Json.numbersAll_map {α : Type} {f : α → Json} {g : α → List Binary64}
    (h : ∀ a, (f a).numbers = g a) (as : List α) : Json.numbersAll (as.map f) = as.flatMap g := by
  rw [Json.numbersAll_eq_flatMap, List.flatMap_map]
  exact congrArg (as.flatMap ·) (funext h)

theorem Json.map_entry (f : Binary64 → Binary64) (key : String) (content : Json) :
    (entry key content).map f = entry key (content.map f) := rfl

theorem Json.numbers_entry (key : String) (content : Json) :
    (entry key content).numbers = content.numbers := by
  rw [entry, Json.numbers, Json.numbersFields, Json.numbersFields, List.append_nil]

theorem Vec3.fits_toJson (v : Vec3) : Json.Fits variants .vector v.toJson := .vector v.x v.y v.z

theorem Rgba.fits_toJson (c : Rgba) : Json.Fits variants Document.rgba c.toJson := by
  refine .record (.named "Rgba".toList) [⟨"r".toList, .number, .number c.r⟩,
    ⟨"g".toList, .number, .number c.g⟩, ⟨"b".toList, .number, .number c.b⟩,
    ⟨"a".toList, .number, .number c.a⟩] (by simp) ?_
  simp only [List.forall_mem_cons]
  exact ⟨.number c.r, .number c.g, .number c.b, .number c.a, List.forall_mem_nil _⟩

theorem Point.fits_toJson (p : Point) : Json.Fits variants Document.point p.toJson := by
  refine .record (.named "Point".toList) [⟨"x".toList, .number, .number p.x⟩,
    ⟨"y".toList, .number, .number p.y⟩, ⟨"z".toList, .number, .number p.z⟩] (by simp) ?_
  simp only [List.forall_mem_cons]
  exact ⟨.number p.x, .number p.y, .number p.z, List.forall_mem_nil _⟩

theorem Face.fits_toJson (f : Face) : Json.Fits variants Document.face f.toJson := by
  refine .record (.named "Face".toList)
    [⟨"points".toList, .list Document.point, .array (f.points.map Point.toJson)⟩] (by simp) ?_
  rw [List.forall_mem_singleton]
  refine .list fun j hj => ?_
  obtain ⟨p, -, rfl⟩ := List.mem_map.mp hj
  exact p.fits_toJson

theorem Face.ofJson?_toJson (f : Face) : Face.ofJson? f.toJson = some f := by
  have hpoints : (f.points.map Point.toJson).mapM Point.ofJson? = some f.points :=
    mapM_map_some (f := Point.toJson) (g := Point.ofJson?) (fun _ => rfl) f.points
  show ((f.points.map Point.toJson).mapM Point.ofJson?).map Face.mk = some f
  rw [hpoints]
  rfl

theorem Face.numbers_toJson (f : Face) : f.toJson.numbers = f.numbers := by
  show Json.numbersAll (f.points.map Point.toJson) ++ [] = f.numbers
  rw [List.append_nil, Json.numbersAll_map (fun _ => rfl)]
  rfl

theorem Face.toJson_map (f : Binary64 → Binary64) (face : Face) :
    (face.map f).toJson = face.toJson.map f := by
  show entries [("points", .array ((face.points.map (Point.map f)).map Point.toJson))]
    = entries [("points", (Json.array (face.points.map Point.toJson)).map f)]
  rw [Json.map_array, List.map_map, List.map_map]
  rfl

theorem TransformOp.toJson_map (f : Binary64 → Binary64) (op : TransformOp) :
    (op.map f).toJson = op.toJson.map f := by
  cases op <;> rfl

theorem TransformOp.fits_toJson (op : TransformOp) :
    Json.Fits variants (.choice .op) op.toJson := by
  cases op with
  | scale v => exact .choice rfl v.fits_toJson
  | resize v => exact .choice rfl v.fits_toJson
  | rotate v => exact .choice rfl v.fits_toJson
  | translate v => exact .choice rfl v.fits_toJson
  | mirror v => exact .choice rfl v.fits_toJson
  | color c => exact .choice rfl c.fits_toJson

theorem TransformOp.ofJson?_toJson (op : TransformOp) :
    TransformOp.ofJson? op.toJson = some op := by
  cases op <;> rfl

theorem TransformOp.numbers_toJson (op : TransformOp) : op.toJson.numbers = op.params := by
  cases op <;> rfl

namespace Node

/-! ## Steps into a model -/

theorem toJsonAll?_cons (c : Node) (cs : List Node) : toJsonAll? (c :: cs)
    = match c.toJson?, toJsonAll? cs with
      | some j, some js => some (j :: js)
      | _, _ => none := rfl

theorem ofJsonAll?_cons (j : Json) (js : List Json) : ofJsonAll? (j :: js)
    = match ofJson? j, ofJsonAll? js with
      | some c, some cs => some (c :: cs)
      | _, _ => none := rfl

theorem toJson?_difference (parent : Node) (cs : List Node) : (difference parent cs).toJson?
    = match parent.toJson?, toJsonAll? cs with
      | some j, some js =>
        some (entry "difference" (entries [("parent", j), ("children", .array js)]))
      | _, _ => none := rfl

theorem ofJson?_difference (key : Text) (content : Json) (js : List Json) :
    ofJson? (entry "difference"
      (entries [("parent", .object [(key, content)]), ("children", .array js)]))
    = match ofJson? (.object [(key, content)]), ofJsonAll? js with
      | some p, some cs => some (difference p cs)
      | _, _ => none := rfl

theorem ofJson?_transform (op : TransformOp) (key : Text) (content : Json) :
    ofJson? (entry "transform"
      (entries [("op", op.toJson), ("content", .object [(key, content)])]))
    = match TransformOp.ofJson? op.toJson, ofJson? (.object [(key, content)]) with
      | some op, some c => some (transform op c)
      | _, _ => none := by
  cases op <;> rfl

/-! ## One node -/

/-- The model is written as the value, and the value is taken back as the model. -/
structure IsWritten (m : Node) (j : Json) : Prop where
  toJson? : m.toJson? = some j
  ofJson? : Node.ofJson? j = some m
  fits : Json.Fits variants (.choice .node) j
  numbers : j.numbers = m.numbers

/-- So it is with several models. -/
structure AreWritten (cs : List Node) (js : List Json) : Prop where
  toJsonAll? : Node.toJsonAll? cs = some js
  ofJsonAll? : Node.ofJsonAll? js = some cs
  fits : ∀ j ∈ js, Json.Fits variants (.choice .node) j
  numbers : Json.numbersAll js = cs.flatMap Node.numbers

theorem exists_areWritten {cs : List Node} (h : ∀ c ∈ cs, ∃ j, c.IsWritten j) :
    ∃ js, AreWritten cs js := by
  induction cs with
  | nil => exact ⟨[], rfl, rfl, List.forall_mem_nil _, rfl⟩
  | cons c cs ih =>
    obtain ⟨⟨j, hj⟩, hrest⟩ := List.forall_mem_cons.mp h
    obtain ⟨js, hjs⟩ := ih hrest
    refine ⟨j :: js, ?_, ?_, List.forall_mem_cons.mpr ⟨hj.fits, hjs.fits⟩, ?_⟩
    · rw [toJsonAll?_cons, hj.toJson?, hjs.toJsonAll?]
    · rw [ofJsonAll?_cons, hj.ofJson?, hjs.ofJsonAll?]
    · rw [Json.numbersAll, hj.numbers, hjs.numbers, List.flatMap_cons]

/-- Every node is written as one entry. -/
theorem isWritten_entry {m : Node} {key : String} {shape : Shape} {content : Json}
    (hto : m.toJson? = some (entry key content))
    (hof : Node.ofJson? (entry key content) = some m)
    (lookup : (variants .node).lookup key.toList = some shape)
    (fits : Json.Fits variants shape content) (hnumbers : content.numbers = m.numbers) :
    m.IsWritten (entry key content) where
  toJson? := hto
  ofJson? := hof
  fits := .choice lookup fits
  numbers := by rw [Json.numbers_entry, hnumbers]

theorem isWritten_literal (text : Text) :
    (literal text).IsWritten (entry "literal" (.string text)) :=
  isWritten_entry rfl rfl rfl (.text text) rfl

theorem isWritten_cube (size : Vec3) (center : Bool) : (cube size center).IsWritten
    (entry "cube" (entries [("size", size.toJson), ("center", .bool center)])) := by
  refine isWritten_entry rfl rfl rfl (.record _ [⟨"size".toList, .vector, size.toJson⟩,
    ⟨"center".toList, .flag, .bool center⟩] (by simp) ?_) rfl
  simp only [List.forall_mem_cons]
  exact ⟨size.fits_toJson, .flag center, List.forall_mem_nil _⟩

theorem isWritten_sphere (r : Binary64) :
    (sphere r).IsWritten (entry "sphere" (entries [("r", .number r)])) := by
  refine isWritten_entry rfl rfl rfl
    (.record _ [⟨"r".toList, .number, .number r⟩] (by simp) ?_) rfl
  rw [List.forall_mem_singleton]
  exact .number r

theorem isWritten_cylinder (h rTop rBottom : Binary64) (center : Bool) :
    (cylinder h rTop rBottom center).IsWritten (entry "cylinder" (entries [("h", .number h),
      ("r_top", .number rTop), ("r_bottom", .number rBottom), ("center", .bool center)])) := by
  refine isWritten_entry rfl rfl rfl (.record _ [⟨"h".toList, .number, .number h⟩,
    ⟨"r_top".toList, .number, .number rTop⟩, ⟨"r_bottom".toList, .number, .number rBottom⟩,
    ⟨"center".toList, .flag, .bool center⟩] (by simp) ?_) rfl
  simp only [List.forall_mem_cons]
  exact ⟨.number h, .number rTop, .number rBottom, .flag center, List.forall_mem_nil _⟩

theorem isWritten_polyhedron (faces : List Face) :
    (polyhedron faces).IsWritten (entry "polyhedron" (.array (faces.map Face.toJson))) := by
  have hfaces : (faces.map Face.toJson).mapM Face.ofJson? = some faces :=
    mapM_map_some Face.ofJson?_toJson faces
  refine isWritten_entry rfl ?_ rfl (.list fun j hj => ?_) ?_
  · show ((faces.map Face.toJson).mapM Face.ofJson?).map Node.polyhedron = _
    rw [hfaces]
    rfl
  · obtain ⟨f, -, rfl⟩ := List.mem_map.mp hj
    exact f.fits_toJson
  · rw [Json.numbers, Json.numbersAll_map Face.numbers_toJson, numbers_eq]
    exact (List.append_nil _).symm

/-- A mesh file is written if its path is a text. The bytes of the path are those of the text. -/
theorem isWritten_mesh {file : Path} {text : Text} (h : file.toText? = some text) :
    (mesh file).IsWritten (entry "import" (.string text)) := by
  have hfile : Path.ofText text = file := congrArg Path.mk (Utf8.encode_of_decode? h)
  refine isWritten_entry ?_ ?_ rfl (.path text) rfl
  · show file.toText?.map (fun text => entry "import" (.string text)) = _
    rw [h]
    rfl
  · show some (mesh (Path.ofText text)) = _
    rw [hfile]

/-! ## Nodes with models below them -/

/-- A kind of node that is nothing but its name and the models below it. -/
theorem isWritten_group {group : List Node → Node} {key : String} {cs : List Node}
    {js : List Json}
    (hto : (group cs).toJson? = (toJsonAll? cs).map fun js => entry key (.array js))
    (hof : Node.ofJson? (entry key (.array js)) = match ofJsonAll? js with
      | none => none
      | some cs => some (group cs))
    (lookup : (variants .node).lookup key.toList = some (.list (.choice .node)))
    (hnumbers : (group cs).numbers = cs.flatMap numbers) (h : AreWritten cs js) :
    (group cs).IsWritten (entry key (.array js)) := by
  refine isWritten_entry ?_ ?_ lookup (.list h.fits) ?_
  · rw [hto, h.toJsonAll?]
    rfl
  · rw [hof, h.ofJsonAll?]
  · rw [Json.numbers, h.numbers, hnumbers]

theorem isWritten_list {cs : List Node} {js : List Json} (h : AreWritten cs js) :
    (list cs).IsWritten (entry "list" (.array js)) :=
  isWritten_group rfl rfl rfl (numbers_eq _) h

theorem isWritten_union {cs : List Node} {js : List Json} (h : AreWritten cs js) :
    (union cs).IsWritten (entry "union" (.array js)) :=
  isWritten_group rfl rfl rfl (numbers_eq _) h

theorem isWritten_intersection {cs : List Node} {js : List Json} (h : AreWritten cs js) :
    (intersection cs).IsWritten (entry "intersection" (.array js)) :=
  isWritten_group rfl rfl rfl (numbers_eq _) h

theorem IsWritten.exists_object {m : Node} {j : Json} (h : m.IsWritten j) :
    ∃ key content, j = .object [(key, content)] := by
  have hof := h.ofJson?
  unfold Node.ofJson? at hof
  split at hof
  next key content => exact ⟨key, content, rfl⟩
  next => cases hof

theorem isWritten_difference {parent : Node} {cs : List Node} {j : Json} {js : List Json}
    (hparent : parent.IsWritten j) (h : AreWritten cs js) : (difference parent cs).IsWritten
      (entry "difference" (entries [("parent", j), ("children", .array js)])) := by
  refine isWritten_entry ?_ ?_ rfl (.record _ [⟨"parent".toList, .choice .node, j⟩,
    ⟨"children".toList, .list (.choice .node), .array js⟩] (by simp) ?_) ?_
  · rw [toJson?_difference, hparent.toJson?, h.toJsonAll?]
  · -- a parent that is a number or a flag would be taken for a field of another kind of node
    obtain ⟨key, content, rfl⟩ := hparent.exists_object
    rw [ofJson?_difference, hparent.ofJson?, h.ofJsonAll?]
  · simp only [List.forall_mem_cons]
    exact ⟨hparent.fits, .list h.fits, List.forall_mem_nil _⟩
  · show j.numbers ++ (Json.numbersAll js ++ []) = _
    rw [hparent.numbers, h.numbers, numbers_eq (difference parent cs), List.append_nil]
    rfl

theorem isWritten_transform (op : TransformOp) {content : Node} {j : Json}
    (h : content.IsWritten j) : (transform op content).IsWritten
      (entry "transform" (entries [("op", op.toJson), ("content", j)])) := by
  refine isWritten_entry ?_ ?_ rfl (.record _ [⟨"op".toList, .choice .op, op.toJson⟩,
    ⟨"content".toList, .choice .node, j⟩] (by simp) ?_) ?_
  · show content.toJson?.map (fun j =>
      entry "transform" (entries [("op", op.toJson), ("content", j)])) = _
    rw [h.toJson?]
    rfl
  · obtain ⟨key, inner, rfl⟩ := h.exists_object
    rw [ofJson?_transform, op.ofJson?_toJson, h.ofJson?]
  · simp only [List.forall_mem_cons]
    exact ⟨op.fits_toJson, h.fits, List.forall_mem_nil _⟩
  · show op.toJson.numbers ++ (j.numbers ++ []) = _
    rw [op.numbers_toJson, h.numbers, numbers_eq (transform op content)]
    rfl

/-! ## All models -/

theorem mem_parts_of_mem_children {m c t : Node} (hc : c ∈ m.children) (ht : t ∈ c.parts) :
    t ∈ m.parts := by
  rw [parts_eq]
  exact List.mem_cons_of_mem m (List.mem_flatMap_of_mem hc ht)

/-- A model can be written if the paths of its mesh files are texts. -/
theorem exists_isWritten (m : Node)
    (hpaths : ∀ file, mesh file ∈ m.parts → file.toText?.isSome = true) : ∃ j, m.IsWritten j := by
  induction m using induction with
  | step m ih =>
    have hchildren : ∀ c ∈ m.children, ∃ j, c.IsWritten j := fun c hc =>
      ih c hc fun file hfile => hpaths file (mem_parts_of_mem_children hc hfile)
    cases m with
    | literal text => exact ⟨_, isWritten_literal text⟩
    | cube size center => exact ⟨_, isWritten_cube size center⟩
    | sphere r => exact ⟨_, isWritten_sphere r⟩
    | cylinder h rTop rBottom center => exact ⟨_, isWritten_cylinder h rTop rBottom center⟩
    | polyhedron faces => exact ⟨_, isWritten_polyhedron faces⟩
    | list cs =>
      obtain ⟨js, hjs⟩ := exists_areWritten hchildren
      exact ⟨_, isWritten_list hjs⟩
    | union cs =>
      obtain ⟨js, hjs⟩ := exists_areWritten hchildren
      exact ⟨_, isWritten_union hjs⟩
    | intersection cs =>
      obtain ⟨js, hjs⟩ := exists_areWritten hchildren
      exact ⟨_, isWritten_intersection hjs⟩
    | difference parent cs =>
      obtain ⟨⟨j, hj⟩, hrest⟩ := List.forall_mem_cons.mp hchildren
      obtain ⟨js, hjs⟩ := exists_areWritten hrest
      exact ⟨_, isWritten_difference hj hjs⟩
    | transform op content =>
      obtain ⟨j, hj⟩ := hchildren content List.mem_cons_self
      exact ⟨_, isWritten_transform op hj⟩
    | mesh file =>
      obtain ⟨text, htext⟩ := Option.isSome_iff_exists.mp (hpaths file (mem_parts_self _))
      exact ⟨_, isWritten_mesh htext⟩

/-! ## Models with other numbers -/

section Map

variable (f : Binary64 → Binary64)

theorem toJsonAll?_map {cs : List Node}
    (h : ∀ c ∈ cs, (c.map f id).toJson? = c.toJson?.map (Json.map f)) :
    toJsonAll? (mapAll f id cs) = (toJsonAll? cs).map (List.map (Json.map f)) := by
  induction cs with
  | nil => rfl
  | cons c cs ih =>
    rw [List.forall_mem_cons] at h
    rw [mapAll, toJsonAll?_cons, toJsonAll?_cons, h.1, ih h.2]
    cases c.toJson? with
    | none => rfl
    | some j => cases toJsonAll? cs <;> rfl

/-- A kind of node that is nothing but its name and the models below it. -/
theorem toJson?_map_group {key : String} {cs : List Node}
    (h : ∀ c ∈ cs, (c.map f id).toJson? = c.toJson?.map (Json.map f)) :
    (toJsonAll? (mapAll f id cs)).map (fun js => entry key (.array js))
      = ((toJsonAll? cs).map fun js => entry key (.array js)).map (Json.map f) := by
  rw [toJsonAll?_map f h, Option.map_map, Option.map_map]
  refine congrArg (Option.map · _) (funext fun js => ?_)
  rw [Function.comp_apply, Function.comp_apply, Json.map_entry, Json.map_array]

/-- **The value of the model with other numbers** is the value with these numbers. -/
theorem toJson?_map (m : Node) : (m.map f id).toJson? = m.toJson?.map (Json.map f) := by
  induction m using induction with
  | step m ih =>
    cases m with
    | list cs => exact toJson?_map_group f ih
    | union cs => exact toJson?_map_group f ih
    | intersection cs => exact toJson?_map_group f ih
    | polyhedron faces =>
      have hfaces : (faces.map (Face.map f)).map Face.toJson
          = (faces.map Face.toJson).map (Json.map f) := by
        rw [List.map_map, List.map_map]
        exact List.map_congr_left fun face _ => face.toJson_map f
      show some (entry "polyhedron" (.array ((faces.map (Face.map f)).map Face.toJson)))
        = some (entry "polyhedron" ((Json.array (faces.map Face.toJson)).map f))
      rw [hfaces, Json.map_array]
    | difference parent cs =>
      obtain ⟨hparent, hrest⟩ := List.forall_mem_cons.mp ih
      rw [map, toJson?_difference, toJson?_difference, hparent, toJsonAll?_map f hrest]
      cases parent.toJson? with
      | none => rfl
      | some j =>
        cases toJsonAll? cs with
        | none => rfl
        | some js =>
          show some (entry "difference" (entries [("parent", j.map f),
              ("children", .array (js.map (Json.map f)))]))
            = some (entry "difference" (entries [("parent", j.map f),
              ("children", (Json.array js).map f)]))
          rw [Json.map_array]
    | transform op content =>
      show ((content.map f id).toJson?.map fun j =>
          entry "transform" (entries [("op", (op.map f).toJson), ("content", j)]))
        = (content.toJson?.map fun j =>
          entry "transform" (entries [("op", op.toJson), ("content", j)])).map (Json.map f)
      rw [ih content List.mem_cons_self, op.toJson_map, Option.map_map, Option.map_map]
      rfl
    | mesh file =>
      show file.toText?.map (fun text => entry "import" (.string text))
        = (file.toText?.map fun text => entry "import" (.string text)).map (Json.map f)
      rw [Option.map_map]
      rfl
    | _ => rfl

variable {f} in
/-- Other numbers are no other files. -/
theorem mesh_mem_parts_of_map {m : Node} {file : Path} (h : mesh file ∈ (m.map f id).parts) :
    mesh file ∈ m.parts := by
  rw [parts_map] at h
  obtain ⟨t, ht, heq⟩ := List.mem_map.mp h
  cases t with
  | mesh other =>
    cases heq
    exact ht
  | _ => cases heq

end Map

/-- The model with each of its numbers read again from its digits. -/
def reread (m : Node) : Node := m.map Binary64.reread id

/-- The model stays as it is if its numbers are read back. -/
theorem reread_eq_self_iff {m : Node} (hfinite : ∀ x ∈ m.numbers, x.isFinite = true) :
    m.reread = m ↔ ∀ x ∈ m.numbers, x.IsReadBack := by
  have hnumbers : (∀ x ∈ m.numbers, x.IsReadBack) ↔ ∀ x ∈ m.numbers, x.reread = x :=
    forall₂_congr fun x hx => by rw [Binary64.isReadBack_iff, forall_prop_of_true (hfinite x hx)]
  rw [hnumbers]
  refine ⟨fun h => ?_, fun h => map_eq_self_of_forall h fun _ _ => rfl⟩
  have hmap := numbers_map Binary64.reread id m
  rw [← reread, h] at hmap
  exact List.map_inj_left.mp (hmap.symm.trans (List.map_id _).symm)

/-! ## Reading -/

/-- Where the brackets are few enough and the numbers are finite, the model is read, and its numbers
are read again. -/
theorem parse_of_isWritten {m : Node} {j : Json} {layout : Json.Layout} (hlayout : layout.IsBlank)
    (hpaths : ∀ file, mesh file ∈ m.parts → file.toText?.isSome = true) (h : m.IsWritten j)
    (hloads : j.Loads Document.levels) : Node.parse (j.print layout) = .ok m.reread := by
  -- the value that is read is the one that the other model is written as
  obtain ⟨k, hk⟩ := exists_isWritten m.reread fun file hfile => hpaths file
    (mesh_mem_parts_of_map hfile)
  have hvalue := hk.toJson?
  rw [reread, toJson?_map, h.toJson?] at hvalue
  cases hvalue
  rw [Node.parse, Json.readAll_print_of_loads hlayout h.fits hloads]
  simp only [hk.ofJson?]

/-- The text of a model is read if and only if every number of the model is finite and no more
brackets are open at once than a document may open. It is the very same model that is read if and
only if its numbers are read back. -/
theorem parse_written_iff (m : Node)
    (hpaths : ∀ file, mesh file ∈ m.parts → file.toText?.isSome = true) {layout : Json.Layout}
    (hlayout : layout = Json.compact ∨ layout = Json.pretty) :
    ∃ t, m.print? layout = some t
      ∧ ((∃ m', Node.parse t = .ok m')
        ↔ (∀ x ∈ m.numbers, x.isFinite = true) ∧ Json.nesting t ≤ Document.levels)
      ∧ ∀ m', Node.parse t = .ok m' →
        m' = m.reread ∧ (m' = m ↔ ∀ x ∈ m.numbers, x.IsReadBack) := by
  have hblank : layout.IsBlank := by
    rcases hlayout with rfl | rfl
    · exact Json.isBlank_compact
    · exact Json.isBlank_pretty
  obtain ⟨j, hj⟩ := exists_isWritten m hpaths
  have hloads : j.Loads Document.levels ↔ (∀ x ∈ m.numbers, x.isFinite = true)
      ∧ Json.nesting (j.print layout) ≤ Document.levels := by
    rw [Json.Loads, hj.numbers, Json.nesting_print hblank, and_comm]
  refine ⟨j.print layout, by rw [Node.print?, hj.toJson?]; rfl, ?_⟩
  rw [← hloads]
  -- the value of the model fits its shape, so the reader only looks at brackets and numbers
  by_cases hfit : j.Loads Document.levels
  · have hparse := parse_of_isWritten hblank hpaths hj hfit
    refine ⟨⟨fun _ => hfit, fun _ => ⟨_, hparse⟩⟩, fun m' hm' => ?_⟩
    rw [hparse] at hm'
    cases hm'
    exact ⟨rfl, reread_eq_self_iff (hloads.mp hfit).1⟩
  · obtain ⟨e, herror⟩ := Json.readAll_print_of_not_loads hblank hj.fits hfit
    have hparse : Node.parse (j.print layout) = .error e := by rw [Node.parse, herror]
    rw [hparse]
    refine ⟨⟨?_, fun h => absurd h hfit⟩, ?_⟩
    · rintro ⟨m', hm'⟩
      cases hm'
    · intro m' hm'
      cases hm'

/-- Quotes, a line feed and a negative zero come back. A radius that is not a number does not, and
there is one that comes back as the number next to it. -/
theorem parse_written_of_quoted_file :
    let box : Node := .cube ⟨⟨0x8000000000000000⟩, ⟨0x3FB999999999999A⟩, .zero⟩ false
    let m : Node :=
      .difference (.list [box, .literal "\"\x7d\n".toList]) [.mesh (.ofString "ä\".stl")]
    let broken : Node := .sphere .nan
    let ball : Node := .sphere ⟨0x403F3ECA06FAEA82⟩
    (∃ t, m.print? Json.pretty = some t ∧ Node.parse t = .ok m)
      ∧ (∃ t, broken.print? Json.compact = some t ∧ ∀ m', Node.parse t ≠ .ok m')
      ∧ ∃ t, ball.print? Json.compact = some t
        ∧ Node.parse t = .ok (.sphere ⟨0x403F3ECA06FAEA83⟩) := by
  intro box m broken ball
  have hpaths : ∀ file, mesh file ∈ m.parts → file.toText?.isSome = true := by
    intro file hfile
    have hmem : file = .ofString "ä\".stl" := by simpa [m, box, parts, partsAll] using hfile
    rw [hmem]
    decide +kernel
  have hfinite : ∀ x ∈ m.numbers, x.isFinite = true := by decide +kernel
  have hreadBack : ∀ x ∈ m.numbers, x.IsReadBack := by decide +kernel
  have hnesting : (m.print? Json.pretty).map Json.nesting = some 7 := by decide +kernel
  obtain ⟨t, hprint, hiff, hread⟩ := parse_written_iff m hpaths (Or.inr rfl)
  rw [hprint, Option.map_some, Option.some_inj] at hnesting
  obtain ⟨m', hm'⟩ := hiff.mpr ⟨hfinite, by rw [hnesting]; decide⟩
  obtain rfl := (hread m' hm').2.mpr hreadBack
  obtain ⟨u, hbroken, hrefused, -⟩ :=
    parse_written_iff broken (by simp [broken, parts]) (Or.inl rfl)
  have hball : (ball.print? Json.compact).map Json.nesting = some 2 := by decide +kernel
  have hradius : Binary64.reread ⟨0x403F3ECA06FAEA82⟩ = ⟨0x403F3ECA06FAEA83⟩ := by decide +kernel
  obtain ⟨v, hv, hiff', hread'⟩ := parse_written_iff ball (by simp [ball, parts]) (Or.inl rfl)
  rw [hv, Option.map_some, Option.some_inj] at hball
  obtain ⟨b, hb⟩ := hiff'.mpr ⟨by decide, by rw [hball]; decide⟩
  have hsphere : b = .sphere ⟨0x403F3ECA06FAEA83⟩ :=
    (hread' b hb).1.trans (congrArg Node.sphere hradius)
  refine ⟨⟨t, hprint, hm'⟩, ⟨u, hbroken, fun m' hm' => ?_⟩, v, hv, hsphere ▸ hb⟩
  have hnan := (hrefused.mp ⟨m', hm'⟩).1 .nan List.mem_cons_self
  exact absurd hnan (by decide)

end Node

end SolidScript
