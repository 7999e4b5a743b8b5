import SolidScript.Proofs.Document
import SolidScript.Proofs.Json.Completeness

/-!
# The texts of a model

`Node.language` are the texts that spell a model. The reader of documents returns a model exactly if
the text is one of these, with blanks around it and 127 open brackets at most
(`Node.parse_eq_ok_iff`). What is read is first a value and then the model that it stands for. So
the language of a value is shown to be that of its model (`Node.isTold_of_spelled`), and every model
that is spelled at all is shown to have such a value (`Node.exists_spelled_of_isInhabited`).

A number is not always the one that is nearest to its digits, and not every number has a value
(`Node.parse_sphere_not_nearest`). The ones with few digits and a small exponent do, and it is the
nearest one.
-/

namespace SolidScript

open Json (Language Spelled FieldsSpelled)
open Document (entry entries variants fieldsOf)

/-! ## Languages -/

def Vec3.language (v : Vec3) : Language := .array [.number v.x, .number v.y, .number v.z]

def Rgba.language (c : Rgba) : Language :=
  .record [("r".toList, .number c.r), ("g".toList, .number c.g), ("b".toList, .number c.b),
    ("a".toList, .number c.a)]

def Point.language (p : Point) : Language :=
  .record [("x".toList, .number p.x), ("y".toList, .number p.y), ("z".toList, .number p.z)]

def Face.language (f : Face) : Language :=
  .record [("points".toList, .array (f.points.map Point.language))]

def TransformOp.language : TransformOp → Language
  | .scale v => .entry "scale".toList v.language
  | .resize v => .entry "resize".toList v.language
  | .rotate v => .entry "rotate".toList v.language
  | .translate v => .entry "translate".toList v.language
  | .mirror v => .entry "mirror".toList v.language
  | .color c => .entry "color".toList c.language

/-- The texts whose bytes are the path. -/
def Path.language (p : Path) : Language := fun levels t r =>
  ∃ text, Path.ofText text = p ∧ Language.string text levels t r

namespace Node

mutual

/-- The texts that spell a model. -/
def language : Node → Language
  | .literal text => .entry "literal".toList (.string text)
  | .list cs => .entry "list".toList (.array (languageAll cs))
  | .cube size center => .entry "cube".toList
    (.record [("size".toList, size.language), ("center".toList, .flag center)])
  | .sphere r => .entry "sphere".toList (.record [("r".toList, .number r)])
  | .cylinder h rTop rBottom center => .entry "cylinder".toList
    (.record [("h".toList, .number h), ("r_top".toList, .number rTop),
      ("r_bottom".toList, .number rBottom), ("center".toList, .flag center)])
  | .polyhedron faces => .entry "polyhedron".toList (.array (faces.map Face.language))
  | .union cs => .entry "union".toList (.array (languageAll cs))
  | .difference parent cs => .entry "difference".toList
    (.record [("parent".toList, parent.language), ("children".toList, .array (languageAll cs))])
  | .intersection cs => .entry "intersection".toList (.array (languageAll cs))
  | .transform op content => .entry "transform".toList
    (.record [("op".toList, op.language), ("content".toList, content.language)])
  | .mesh file => .entry "import".toList file.language

def languageAll : List Node → List Language
  | [] => []
  | c :: cs => c.language :: languageAll cs

end

theorem languageAll_eq_map (cs : List Node) : languageAll cs = cs.map language := by
  induction cs with
  | nil => rfl
  | cons c cs ih => rw [languageAll, ih, List.map_cons]

end Node

/-! ## The parts of a value -/

section Parts

variable {j : Json} {L : Language}

theorem Json.Spelled.exists_number (h : Spelled variants .number j L) :
    ∃ x, j = .number x ∧ L = .number x := by
  cases h with
  | number x => exact ⟨x, rfl, rfl⟩

theorem Json.Spelled.exists_flag (h : Spelled variants .flag j L) :
    ∃ b, j = .bool b ∧ L = .flag b := by
  cases h with
  | flag b => exact ⟨b, rfl, rfl⟩

theorem Json.Spelled.exists_rows {item : Shape} (h : Spelled variants (.list item) j L) :
    ∃ rows : List (Json × Language), j = .array (rows.map Prod.fst)
      ∧ L = .array (rows.map Prod.snd) ∧ ∀ row ∈ rows, Spelled variants item row.1 row.2 := by
  cases h with
  | @list item rows h => exact ⟨rows, rfl, rfl, h⟩

theorem Json.Spelled.exists_entry {of : Choice} (h : Spelled variants (.choice of) j L) :
    ∃ key content j' L', j = .object [(key, j')] ∧ L = .entry key L'
      ∧ (key, content) ∈ variants of ∧ Spelled variants content j' L' := by
  cases h with
  | choice lookup h => exact ⟨_, _, _, _, rfl, rfl, Json.mem_of_lookup lookup, h⟩

theorem Json.Spelled.exists_key {of : Choice} (h : Spelled variants (.choice of) j L) :
    ∃ key content, j = .object [(key, content)] := by
  obtain ⟨key, -, content, -, rfl, -⟩ := h.exists_entry
  exact ⟨key, content, rfl⟩

theorem Json.Spelled.exists_object {title : Shape.Title} {fields : List (Text × Shape)}
    (h : Spelled variants (.record title fields) j L) :
    ∃ fs ls, j = .object fs ∧ L = .record ls ∧ FieldsSpelled (Spelled variants) fields fs ls := by
  cases h with
  | record names h => exact ⟨_, _, rfl, rfl, h⟩

variable {R : Shape → Json → Language → Prop}

theorem Json.FieldsSpelled.exists_cons {name : Text} {shape : Shape} {fields : List (Text × Shape)}
    {fs : List (Text × Json)} {ls : List (Text × Language)}
    (h : FieldsSpelled R ((name, shape) :: fields) fs ls) :
    ∃ j L fs' ls', fs = (name, j) :: fs' ∧ ls = (name, L) :: ls' ∧ R shape j L
      ∧ FieldsSpelled R fields fs' ls' := by
  cases h with
  | cons h hrest => exact ⟨_, _, _, _, rfl, rfl, h, hrest⟩

theorem Json.FieldsSpelled.eq_nil {fs : List (Text × Json)} {ls : List (Text × Language)}
    (h : FieldsSpelled R [] fs ls) : fs = [] ∧ ls = [] := by
  cases h with
  | nil => exact ⟨rfl, rfl⟩

end Parts

/-! ## Values stand for models -/

theorem Vec3.exists_of_spelled {j : Json} {L : Language} (h : Spelled variants .vector j L) :
    ∃ v, Vec3.ofJson? j = some v ∧ v.language = L := by
  cases h with
  | vector x y z => exact ⟨⟨x, y, z⟩, rfl, rfl⟩

theorem Point.exists_of_spelled {j : Json} {L : Language}
    (h : Spelled variants Document.point j L) :
    ∃ p, Point.ofJson? j = some p ∧ p.language = L := by
  obtain ⟨fs, ls, rfl, rfl, hls⟩ := h.exists_object
  obtain ⟨jx, Lx, fs, ls, rfl, rfl, hx, hls⟩ := hls.exists_cons
  obtain ⟨jy, Ly, fs, ls, rfl, rfl, hy, hls⟩ := hls.exists_cons
  obtain ⟨jz, Lz, fs, ls, rfl, rfl, hz, hls⟩ := hls.exists_cons
  obtain ⟨rfl, rfl⟩ := hls.eq_nil
  obtain ⟨x, rfl, rfl⟩ := hx.exists_number
  obtain ⟨y, rfl, rfl⟩ := hy.exists_number
  obtain ⟨z, rfl, rfl⟩ := hz.exists_number
  exact ⟨⟨x, y, z⟩, rfl, rfl⟩

theorem Rgba.exists_of_spelled {j : Json} {L : Language}
    (h : Spelled variants Document.rgba j L) :
    ∃ c, Rgba.ofJson? j = some c ∧ c.language = L := by
  obtain ⟨fs, ls, rfl, rfl, hls⟩ := h.exists_object
  obtain ⟨jr, Lr, fs, ls, rfl, rfl, hr, hls⟩ := hls.exists_cons
  obtain ⟨jg, Lg, fs, ls, rfl, rfl, hg, hls⟩ := hls.exists_cons
  obtain ⟨jb, Lb, fs, ls, rfl, rfl, hb, hls⟩ := hls.exists_cons
  obtain ⟨ja, La, fs, ls, rfl, rfl, ha, hls⟩ := hls.exists_cons
  obtain ⟨rfl, rfl⟩ := hls.eq_nil
  obtain ⟨r, rfl, rfl⟩ := hr.exists_number
  obtain ⟨g, rfl, rfl⟩ := hg.exists_number
  obtain ⟨b, rfl, rfl⟩ := hb.exists_number
  obtain ⟨a, rfl, rfl⟩ := ha.exists_number
  exact ⟨⟨r, g, b, a⟩, rfl, rfl⟩

/-- What is known of every item is known of the list of them. -/
theorem exists_mapM_eq {α : Type} {read : Json → Option α} {language : α → Language}
    {rows : List (Json × Language)}
    (h : ∀ row ∈ rows, ∃ a, read row.1 = some a ∧ language a = row.2) :
    ∃ as : List α, (rows.map Prod.fst).mapM read = some as
      ∧ as.map language = rows.map Prod.snd := by
  induction rows with
  | nil => exact ⟨[], rfl, rfl⟩
  | cons row rows ih =>
    obtain ⟨⟨a, hread, hlanguage⟩, hothers⟩ := List.forall_mem_cons.mp h
    obtain ⟨as, hreads, hlanguages⟩ := ih hothers
    refine ⟨a :: as, ?_, ?_⟩
    · rw [List.map_cons, List.mapM_cons, hread, hreads]
      rfl
    · rw [List.map_cons, List.map_cons, hlanguage, hlanguages]

theorem Face.exists_of_spelled {j : Json} {L : Language}
    (h : Spelled variants Document.face j L) :
    ∃ f, Face.ofJson? j = some f ∧ f.language = L := by
  obtain ⟨fs, ls, rfl, rfl, hls⟩ := h.exists_object
  obtain ⟨jp, Lp, fs, ls, rfl, rfl, hp, hls⟩ := hls.exists_cons
  obtain ⟨rfl, rfl⟩ := hls.eq_nil
  obtain ⟨rows, rfl, rfl, hrows⟩ := hp.exists_rows
  obtain ⟨ps, hread, hlanguage⟩ := exists_mapM_eq fun row hrow =>
    Point.exists_of_spelled (hrows row hrow)
  refine ⟨⟨ps⟩, ?_, ?_⟩
  · show ((rows.map Prod.fst).mapM Point.ofJson?).map Face.mk = some ⟨ps⟩
    rw [hread]
    rfl
  · rw [Face.language, hlanguage]

theorem TransformOp.exists_of_spelled {j : Json} {L : Language}
    (h : Spelled variants (.choice .op) j L) :
    ∃ op, TransformOp.ofJson? j = some op ∧ op.language = L := by
  obtain ⟨key, content, j, L, rfl, rfl, hmem, h⟩ := h.exists_entry
  have hvector {key : String} {op : Vec3 → TransformOp} (h : Spelled variants .vector j L)
      (hof : TransformOp.ofJson? (entry key j) = (Vec3.ofJson? j).map op)
      (hlanguage : ∀ v, (op v).language = .entry key.toList v.language) :
      ∃ o, TransformOp.ofJson? (entry key j) = some o ∧ o.language = .entry key.toList L := by
    obtain ⟨v, hv, rfl⟩ := Vec3.exists_of_spelled h
    exact ⟨op v, by rw [hof, hv]; rfl, hlanguage v⟩
  simp only [variants, List.mem_cons, List.not_mem_nil, or_false] at hmem
  rcases hmem with heq | heq | heq | heq | heq | heq
  · cases heq
    exact hvector h rfl fun _ => rfl
  · cases heq
    exact hvector h rfl fun _ => rfl
  · cases heq
    exact hvector h rfl fun _ => rfl
  · cases heq
    exact hvector h rfl fun _ => rfl
  · cases heq
    exact hvector h rfl fun _ => rfl
  · cases heq
    obtain ⟨c, hc, rfl⟩ := Rgba.exists_of_spelled h
    refine ⟨.color c, ?_, rfl⟩
    show (Rgba.ofJson? j).map TransformOp.color = _
    rw [hc]
    rfl

theorem Json.depth_lt_of_mem_array {j : Json} {js : List Json} (h : j ∈ js) :
    j.depth < (Json.array js).depth := by
  have hle := (Json.depthAll_le_iff js).mp (Nat.le_refl _) j h
  rw [Json.depth_array]
  omega

theorem Json.depth_lt_entry (key : Text) (j : Json) : j.depth < (Json.object [(key, j)]).depth := by
  simp only [Json.depth_object, Json.depthFields_cons]
  omega

theorem Json.depth_lt_pair (a b : Text) (j k : Json) :
    j.depth < (Json.object [(a, j), (b, k)]).depth
      ∧ k.depth < (Json.object [(a, j), (b, k)]).depth := by
  simp only [Json.depth_object, Json.depthFields_cons]
  omega

/-- Different texts are different paths. -/
theorem Path.language_ofText (text : Text) : (Path.ofText text).language = .string text := by
  funext levels t r
  refine propext ⟨?_, fun h => ⟨text, rfl, h⟩⟩
  rintro ⟨other, hsame, hstring⟩
  have hdecoded := congrArg Path.toText? hsame
  rw [Path.toText?, Path.toText?, Path.ofText, Path.ofText, Utf8.decode?_encode,
    Utf8.decode?_encode] at hdecoded
  rwa [← Option.some.inj hdecoded]

namespace Node

/-- The value stands for a model that has the language. -/
def IsTold (j : Json) (L : Language) : Prop := ∃ m : Node, ofJson? j = some m ∧ m.language = L

theorem exists_ofJsonAll?_eq {rows : List (Json × Language)}
    (h : ∀ row ∈ rows, IsTold row.1 row.2) :
    ∃ cs, ofJsonAll? (rows.map Prod.fst) = some cs ∧ languageAll cs = rows.map Prod.snd := by
  induction rows with
  | nil => exact ⟨[], rfl, rfl⟩
  | cons row rows ih =>
    obtain ⟨⟨c, hc, hlanguage⟩, hothers⟩ := List.forall_mem_cons.mp h
    obtain ⟨cs, hcs, hlanguages⟩ := ih hothers
    refine ⟨c :: cs, ?_, ?_⟩
    · rw [List.map_cons, ofJsonAll?_cons, hc, hcs]
    · rw [languageAll, List.map_cons, hlanguage, hlanguages]

/-- A kind of node that is nothing but its name and the models below it. -/
theorem isTold_group {group : List Node → Node} {key : String} {rows : List (Json × Language)}
    (hof : ∀ js, ofJson? (entry key (.array js)) = match ofJsonAll? js with
      | none => none
      | some cs => some (group cs))
    (hlanguage : ∀ cs, (group cs).language = .entry key.toList (.array (languageAll cs)))
    (h : ∀ row ∈ rows, IsTold row.1 row.2) :
    IsTold (entry key (.array (rows.map Prod.fst)))
      (.entry key.toList (.array (rows.map Prod.snd))) := by
  obtain ⟨cs, hcs, hlanguages⟩ := exists_ofJsonAll?_eq h
  exact ⟨group cs, by rw [hof, hcs], by rw [hlanguage, hlanguages]⟩

section Kinds

variable {j : Json} {L : Language}

theorem isTold_cube
    (h : Spelled variants (fieldsOf "Cube" [("size", .vector), ("center", .flag)]) j L) :
    IsTold (entry "cube" j) (.entry "cube".toList L) := by
  obtain ⟨fs, ls, rfl, rfl, hls⟩ := h.exists_object
  obtain ⟨js, Ls, fs, ls, rfl, rfl, hsize, hls⟩ := hls.exists_cons
  obtain ⟨jc, Lc, fs, ls, rfl, rfl, hcenter, hls⟩ := hls.exists_cons
  obtain ⟨rfl, rfl⟩ := hls.eq_nil
  obtain ⟨center, rfl, rfl⟩ := hcenter.exists_flag
  cases hsize with
  | vector x y z => exact ⟨.cube ⟨x, y, z⟩ center, rfl, rfl⟩

theorem isTold_sphere (h : Spelled variants (fieldsOf "Sphere" [("r", .number)]) j L) :
    IsTold (entry "sphere" j) (.entry "sphere".toList L) := by
  obtain ⟨fs, ls, rfl, rfl, hls⟩ := h.exists_object
  obtain ⟨jr, Lr, fs, ls, rfl, rfl, hr, hls⟩ := hls.exists_cons
  obtain ⟨rfl, rfl⟩ := hls.eq_nil
  obtain ⟨r, rfl, rfl⟩ := hr.exists_number
  exact ⟨.sphere r, rfl, rfl⟩

theorem isTold_cylinder (h : Spelled variants (fieldsOf "Cylinder"
      [("h", .number), ("r_top", .number), ("r_bottom", .number), ("center", .flag)]) j L) :
    IsTold (entry "cylinder" j) (.entry "cylinder".toList L) := by
  obtain ⟨fs, ls, rfl, rfl, hls⟩ := h.exists_object
  obtain ⟨jh, Lh, fs, ls, rfl, rfl, hh, hls⟩ := hls.exists_cons
  obtain ⟨jt, Lt, fs, ls, rfl, rfl, ht, hls⟩ := hls.exists_cons
  obtain ⟨jb, Lb, fs, ls, rfl, rfl, hb, hls⟩ := hls.exists_cons
  obtain ⟨jc, Lc, fs, ls, rfl, rfl, hcenter, hls⟩ := hls.exists_cons
  obtain ⟨rfl, rfl⟩ := hls.eq_nil
  obtain ⟨height, rfl, rfl⟩ := hh.exists_number
  obtain ⟨rTop, rfl, rfl⟩ := ht.exists_number
  obtain ⟨rBottom, rfl, rfl⟩ := hb.exists_number
  obtain ⟨center, rfl, rfl⟩ := hcenter.exists_flag
  exact ⟨.cylinder height rTop rBottom center, rfl, rfl⟩

theorem isTold_polyhedron (h : Spelled variants (.list Document.face) j L) :
    IsTold (entry "polyhedron" j) (.entry "polyhedron".toList L) := by
  obtain ⟨rows, rfl, rfl, hrows⟩ := h.exists_rows
  obtain ⟨faces, hread, hlanguage⟩ := exists_mapM_eq fun row hrow =>
    Face.exists_of_spelled (hrows row hrow)
  refine ⟨.polyhedron faces, ?_, ?_⟩
  · show ((rows.map Prod.fst).mapM Face.ofJson?).map Node.polyhedron = _
    rw [hread]
    rfl
  · rw [language, hlanguage]

theorem isTold_mesh (h : Spelled variants .path j L) :
    IsTold (entry "import" j) (.entry "import".toList L) := by
  cases h with
  | path text =>
    refine ⟨.mesh (.ofText text), rfl, ?_⟩
    rw [language, Path.language_ofText]

theorem isTold_literal (h : Spelled variants .text j L) :
    IsTold (entry "literal" j) (.entry "literal".toList L) := by
  cases h with
  | text s => exact ⟨.literal s, rfl, rfl⟩

/-- The parent is an object with one entry, as every node is. -/
theorem isTold_difference {rows : List (Json × Language)}
    (hkey : ∃ key content, j = .object [(key, content)]) (h : IsTold j L)
    (hrows : ∀ row ∈ rows, IsTold row.1 row.2) :
    IsTold (entry "difference" (entries [("parent", j), ("children", .array (rows.map Prod.fst))]))
      (.entry "difference".toList (.record [("parent".toList, L),
        ("children".toList, .array (rows.map Prod.snd))])) := by
  obtain ⟨key, content, rfl⟩ := hkey
  obtain ⟨parent, hparent, rfl⟩ := h
  obtain ⟨cs, hcs, hlanguages⟩ := exists_ofJsonAll?_eq hrows
  refine ⟨.difference parent cs, ?_, ?_⟩
  · rw [ofJson?_difference, hparent, hcs]
  · rw [language, hlanguages]

theorem ofJson?_transform_object (opKey key : Text) (opContent content : Json) :
    ofJson? (entry "transform" (entries [("op", .object [(opKey, opContent)]),
      ("content", .object [(key, content)])]))
    = match TransformOp.ofJson? (.object [(opKey, opContent)]),
        ofJson? (.object [(key, content)]) with
      | some op, some c => some (transform op c)
      | _, _ => none := rfl

theorem isTold_transform {jop : Json} {Lop : Language}
    (hop : Spelled variants (.choice .op) jop Lop)
    (hkey : ∃ key content, j = .object [(key, content)]) (h : IsTold j L) :
    IsTold (entry "transform" (entries [("op", jop), ("content", j)]))
      (.entry "transform".toList (.record [("op".toList, Lop), ("content".toList, L)])) := by
  obtain ⟨op, hread, rfl⟩ := TransformOp.exists_of_spelled hop
  obtain ⟨opKey, opContent, rfl⟩ := hop.exists_key
  obtain ⟨key, content, rfl⟩ := hkey
  obtain ⟨m, hm, rfl⟩ := h
  refine ⟨.transform op m, ?_, rfl⟩
  rw [ofJson?_transform_object, hread, hm]

end Kinds

/-- Every value of the shape of a node stands for a model, and has its language. -/
theorem isTold_of_spelled {j : Json} {L : Language} (h : Spelled variants (.choice .node) j L) :
    IsTold j L := by
  -- the models below a node have values of less depth
  generalize hn : j.depth = n
  induction n using Nat.strongRecOn generalizing j L with
  | ind n ih =>
    subst hn
    obtain ⟨key, content, j, L, rfl, rfl, hmem, h⟩ := h.exists_entry
    have hbelow := Json.depth_lt_entry key j
    have hrows {rows : List (Json × Language)}
        (hlt : (Json.array (rows.map Prod.fst)).depth < (Json.object [(key, j)]).depth)
        (h : ∀ row ∈ rows, Spelled variants (.choice .node) row.1 row.2) :
        ∀ row ∈ rows, IsTold row.1 row.2 := fun row hrow =>
      ih _ (Nat.lt_trans (Json.depth_lt_of_mem_array (List.mem_map_of_mem hrow)) hlt) (h row hrow)
        rfl
    simp only [variants, List.mem_cons, List.not_mem_nil, or_false] at hmem
    rcases hmem with heq | heq | heq | heq | heq | heq | heq | heq | heq | heq | heq
    · cases heq
      exact isTold_literal h
    · cases heq
      obtain ⟨rows, rfl, rfl, hspelled⟩ := h.exists_rows
      exact isTold_group (fun _ => rfl) (fun _ => rfl) (hrows hbelow hspelled)
    · cases heq
      exact isTold_cube h
    · cases heq
      exact isTold_sphere h
    · cases heq
      exact isTold_cylinder h
    · cases heq
      exact isTold_polyhedron h
    · cases heq
      obtain ⟨rows, rfl, rfl, hspelled⟩ := h.exists_rows
      exact isTold_group (fun _ => rfl) (fun _ => rfl) (hrows hbelow hspelled)
    · cases heq
      obtain ⟨fs, ls, rfl, rfl, hls⟩ := h.exists_object
      obtain ⟨jp, Lp, fs, ls, rfl, rfl, hparent, hls⟩ := hls.exists_cons
      obtain ⟨jc, Lc, fs, ls, rfl, rfl, hchildren, hls⟩ := hls.exists_cons
      obtain ⟨rfl, rfl⟩ := hls.eq_nil
      obtain ⟨rows, rfl, rfl, hspelled⟩ := hchildren.exists_rows
      obtain ⟨hjp, hjc⟩ := Json.depth_lt_pair "parent".toList "children".toList jp
        (.array (rows.map Prod.fst))
      exact isTold_difference hparent.exists_key
        (ih _ (Nat.lt_trans hjp hbelow) hparent rfl) (hrows (Nat.lt_trans hjc hbelow) hspelled)
    · cases heq
      obtain ⟨rows, rfl, rfl, hspelled⟩ := h.exists_rows
      exact isTold_group (fun _ => rfl) (fun _ => rfl) (hrows hbelow hspelled)
    · cases heq
      obtain ⟨fs, ls, rfl, rfl, hls⟩ := h.exists_object
      obtain ⟨jo, Lo, fs, ls, rfl, rfl, hop, hls⟩ := hls.exists_cons
      obtain ⟨jc, Lc, fs, ls, rfl, rfl, hcontent, hls⟩ := hls.exists_cons
      obtain ⟨rfl, rfl⟩ := hls.eq_nil
      obtain ⟨-, hjc⟩ := Json.depth_lt_pair "op".toList "content".toList jo jc
      exact isTold_transform hop hcontent.exists_key
        (ih _ (Nat.lt_trans hjc hbelow) hcontent rfl)
    · cases heq
      exact isTold_mesh h

/-! ## Models that are spelled -/

theorem isInhabited_of_mem_children {m c : Node} (h : m.language.IsInhabited)
    (hc : c ∈ m.children) : c.language.IsInhabited := by
  have hall {cs : List Node} (h : (Language.array (languageAll cs)).IsInhabited) :
      ∀ c ∈ cs, c.language.IsInhabited := by
    rw [languageAll_eq_map] at h
    exact fun c hc => Language.isInhabited_of_array h c.language (List.mem_map_of_mem hc)
  cases m with
  | list cs => exact hall (Language.isInhabited_of_entry h) c hc
  | union cs => exact hall (Language.isInhabited_of_entry h) c hc
  | intersection cs => exact hall (Language.isInhabited_of_entry h) c hc
  | difference parent cs =>
    have hfields := Language.isInhabited_of_record (by simp) (Language.isInhabited_of_entry h)
    rcases List.mem_cons.mp hc with rfl | hc
    · exact hfields _ List.mem_cons_self
    · exact hall (hfields _ (List.mem_cons_of_mem _ List.mem_cons_self)) c hc
  | transform op content =>
    have hfields := Language.isInhabited_of_record (by simp) (Language.isInhabited_of_entry h)
    rw [List.mem_singleton.mp hc]
    exact hfields _ (List.mem_cons_of_mem _ List.mem_cons_self)
  | _ => cases hc

/-- A model that is spelled has mesh files whose paths are texts. -/
theorem isSome_toText?_of_isInhabited {m : Node} (h : m.language.IsInhabited) :
    ∀ file, mesh file ∈ m.parts → file.toText?.isSome = true := by
  induction m using induction with
  | step m ih =>
    intro file hfile
    rw [parts_eq] at hfile
    rcases List.mem_cons.mp hfile with rfl | hfile
    · obtain ⟨levels, t, r, text, rfl, -⟩ := Language.isInhabited_of_entry h
      rw [Path.toText?, Path.ofText, Utf8.decode?_encode]
      rfl
    · obtain ⟨c, hc, hfile⟩ := List.mem_flatMap.mp hfile
      exact ih c hc (isInhabited_of_mem_children h hc) file hfile

/-- The value that a model is written as has the language of the model. -/
theorem IsWritten.spelled {m : Node} {j : Json} (h : m.IsWritten j) :
    Spelled variants (.choice .node) j m.language := by
  obtain ⟨L, hL⟩ := h.fits.exists_spelled
  obtain ⟨m', hm', rfl⟩ := isTold_of_spelled hL
  rw [h.ofJson?] at hm'
  cases hm'
  exact hL

/-- A model that is spelled is the model of a value that fits, with the language of that value. -/
theorem exists_spelled_of_isInhabited {m : Node} (h : m.language.IsInhabited) :
    ∃ j, ofJson? j = some m ∧ Spelled variants (.choice .node) j m.language := by
  obtain ⟨j, hj⟩ := exists_isWritten m (isSome_toText?_of_isInhabited h)
  exact ⟨j, hj.ofJson?, hj.spelled⟩

theorem isDistinct_variants : ∀ of, ∀ f ∈ variants of, Json.isDistinct f.2 = true := by
  intro of
  cases of <;> decide

/-- What is read as the model is a text of the model. -/
theorem isDocument_of_parse {s : Text} {m : Node} (h : Node.parse s = .ok m) :
    Json.IsDocument m.language 127 s := by
  rw [Node.parse] at h
  split at h
  next => cases h
  next j hall =>
    split at h
    next m' hj =>
      cases h
      rw [Json.readAll] at hall
      split at hall
      next => cases hall
      next j' r hread =>
        split at hall
        next hblank =>
          cases hall
          obtain ⟨t, L, hs, hL, ht⟩ := Json.read_sound isDistinct_variants rfl s j r hread
          obtain ⟨m', hm', rfl⟩ := isTold_of_spelled hL
          rw [hj] at hm'
          cases hm'
          exact ⟨t, r, hs, ht, Json.blanks_of_skipBlanks_eq hblank⟩
        next => cases hall
    next => cases h

/-- A text of the model is read as the model. -/
theorem parse_of_isDocument {s : Text} {m : Node} (h : Json.IsDocument m.language 127 s) :
    Node.parse s = .ok m := by
  obtain ⟨t, r, hs, ht, hr⟩ := h
  obtain ⟨j, hj, hL⟩ := exists_spelled_of_isInhabited ⟨_, _, _, ht⟩
  have hread : Json.read variants (s.length + 1) Document.levels (.choice .node) s = .ok (j, r) :=
    (Json.findsAll_read _).eq hL ht hs (Json.isNumeralEnd_of_blanks_nil hr) (Nat.lt_succ_self _)
  have hall : Json.readAll variants Document.levels (.choice .node) s = .ok j := by
    rw [Json.readAll, hread]
    exact if_pos hr.skipBlanks_eq
  rw [Node.parse, hall]
  simp only [hj]

/-- **The texts of a model are the texts that are read as the model.** In these texts, the number of
a numeral with few digits and a small exponent is the one that is nearest to it. -/
theorem parse_eq_ok_iff :
    (∀ s m, Node.parse s = .ok m ↔ Json.IsDocument m.language 127 s)
      ∧ ∀ (p : Json.Parts) (negative : Bool) (x : Binary64),
        p.decimal.coefficient < 2 ^ 53 → p.decimal.exponent.natAbs ≤ 22 →
          ((∃ d, p.Keeps d ∧ x.Scales negative d)
            ↔ x.IsNearest negative p.decimal.num p.decimal.den) :=
  ⟨fun _ _ => ⟨isDocument_of_parse, parse_of_isDocument⟩,
    fun _ _ _ hc he => Json.Parts.scales_iff_isNearest hc he⟩

/-- A short numeral in a document. -/
theorem parse_eq_ok_iff_of_tenth :
    let ball : Node := .sphere ⟨0x3FB999999999999A⟩
    let s := "\x7b\"sphere\":\x7b\"r\":0.1\x7d\x7d".toList
    Node.parse s = .ok ball ∧ Json.IsDocument ball.language 127 s
      ∧ Binary64.IsNearest ⟨0x3FB999999999999A⟩ false 1 10 := by
  intro ball s
  have hprint : (entry "sphere" (entries [("r", .number ⟨0x3FB999999999999A⟩)])).print Json.compact
      = s := by
    decide +kernel
  have hreread : ball.reread = ball :=
    congrArg Node.sphere (by decide +kernel : Binary64.reread ⟨0x3FB999999999999A⟩ = _)
  have hparse := parse_of_isWritten Json.isBlank_compact (by simp [parts])
    (isWritten_sphere ⟨0x3FB999999999999A⟩)
    ⟨by decide, List.forall_mem_singleton.mpr (by decide)⟩
  rw [hprint, hreread] at hparse
  obtain ⟨hiff, hnearest⟩ := parse_eq_ok_iff
  refine ⟨hparse, (hiff s ball).mp hparse, ?_⟩
  have hvalue : (⟨false, "0".toList, "1".toList, 0, false⟩ : Json.Numeral).value?
      = some ⟨0x3FB999999999999A⟩ := by
    decide +kernel
  exact (hnearest ⟨"0".toList, "1".toList, 0⟩ false ⟨0x3FB999999999999A⟩ (by decide) (by decide)).mp
    (Json.value?_eq_some_iff.mp hvalue)

/-- There is a numeral that is read as the value next to the one that is nearest to it, and one that
is refused though there is a value nearest to it. -/
theorem parse_sphere_not_nearest :
    let near : Binary64 := ⟨0x403F3ECA06FAEA82⟩
    let next : Binary64 := ⟨0x403F3ECA06FAEA83⟩
    let greatest : Binary64 := ⟨0x7FEFFFFFFFFFFFFF⟩
    (near.IsNearest false 31245270191439438 (10 ^ 15)
        ∧ Node.parse "\x7b\"sphere\":\x7b\"r\":31.245270191439438\x7d\x7d".toList
          = .ok (.sphere next) ∧ near ≠ next)
      ∧ greatest.IsNearest false (17976931348623158 * 10 ^ 292) 1
      ∧ ∀ m, Node.parse "\x7b\"sphere\":\x7b\"r\":1.7976931348623158e308\x7d\x7d".toList
        ≠ .ok m := by
  intro near next greatest
  have hprint : (entry "sphere" (entries [("r", .number near)])).print Json.compact
      = "\x7b\"sphere\":\x7b\"r\":31.245270191439438\x7d\x7d".toList := by
    decide +kernel
  have hreread : (sphere near).reread = .sphere next :=
    congrArg Node.sphere (by decide +kernel : near.reread = next)
  have hparse := parse_of_isWritten Json.isBlank_compact (by simp [parts]) (isWritten_sphere near)
    ⟨by decide, List.forall_mem_singleton.mpr (by decide)⟩
  rw [hprint, hreread] at hparse
  refine ⟨⟨(Binary64.ofRatio_eq_iff (by decide)).mp (by decide +kernel), hparse, by decide⟩,
    (Binary64.ofRatio_eq_iff (by decide)).mp (by decide +kernel), fun m hm => ?_⟩
  have hrefused : (Node.parse
      "\x7b\"sphere\":\x7b\"r\":1.7976931348623158e308\x7d\x7d".toList).toOption.isNone
        = true := by
    decide +kernel
  rw [hm] at hrefused
  cases hrefused

end Node

end SolidScript
