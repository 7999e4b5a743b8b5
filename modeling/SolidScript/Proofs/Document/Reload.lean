import SolidScript.Proofs.Document.Language
import SolidScript.Proofs.Files

/-!
# Models that have been loaded

However a document spells a model, the model is one that can be written, and what is written is
read. It is read as the model itself if its numbers are read back. The writer has one spelling for
each value and the reader has many, so this is more than that the writer and the reader agree: a
spelling that is read must not stand for a value whose own text opens too many brackets or has a
number that is none. It does not, because each part of a spelling that opens a bracket stands for a
part of the value that opens one (`Json.Spelled.loads`).

The main statement is `Node.isKept_of_parse`.
-/

namespace SolidScript

open Json (Language Spelled FieldsSpelled)
open Document (variants)
open Machine

/-! ## What is spelled can be loaded -/

namespace Json

variable {variants : Choice → List (Text × Shape)}

/-- A value belongs to a field and to its language. -/
theorem FieldsSpelled.exists_language_of_mem {R : Shape → Json → Language → Prop}
    {fields : List (Text × Shape)} {fs : List (Text × Json)} {ls : List (Text × Language)}
    (h : FieldsSpelled R fields fs ls) {f : Text × Json} (hmem : f ∈ fs) :
    ∃ shape L, (f.1, L) ∈ ls ∧ R shape f.2 L := by
  induction h with
  | nil => cases hmem
  | @cons name shape j L fields fs ls hL _ ih =>
    rcases List.mem_cons.mp hmem with rfl | hmem
    · exact ⟨shape, L, List.mem_cons_self, hL⟩
    · obtain ⟨shape, L, hlanguage, hL⟩ := ih hmem
      exact ⟨shape, L, List.mem_cons_of_mem _ hlanguage, hL⟩

/-- A value that is spelled within so many brackets is one that can be loaded within them. -/
theorem Spelled.loads {levels : Nat} {shape : Shape} {j : Json} {L : Language}
    (h : Spelled variants shape j L) (htext : L.HasText levels) : j.Loads levels := by
  -- what stands inside an array or an object has a bracket less
  induction levels using Nat.strongRecOn generalizing shape j L with
  | ind levels ih =>
    cases h with
    | number x =>
      obtain ⟨t, r, negative, p, d, -, -, hscales⟩ := htext
      exact (loads_number_iff levels x).mpr hscales.finite
    | flag b => exact loads_flag levels b
    | text s => exact loads_string levels s
    | path s => exact loads_string levels s
    | vector x y z =>
      obtain ⟨inner, rfl, hitems⟩ := Language.hasText_of_array htext
      have hnumber (a : Binary64) (h : (Language.number a).HasText inner) :
          (Json.number a).Loads inner := ih inner (Nat.lt_succ_self inner) (.number a) h
      simp only [loads_array_iff, List.forall_mem_cons] at hitems ⊢
      exact ⟨hnumber x hitems.1, hnumber y hitems.2.1, hnumber z hitems.2.2.1,
        List.forall_mem_nil _⟩
    | @list item rows hrows =>
      obtain ⟨inner, rfl, hitems⟩ := Language.hasText_of_array htext
      rw [loads_array_iff, List.forall_mem_map]
      exact fun row hrow => ih inner (Nat.lt_succ_self inner) (hrows row hrow)
        (hitems row.2 (List.mem_map_of_mem hrow))
    | @record title fields fs ls names hls =>
      obtain ⟨inner, rfl, hfields⟩ := Language.hasText_of_record (hls.names_eq ▸ names) htext
      rw [loads_object_iff]
      intro f hf
      obtain ⟨shape, L, hlanguage, hL⟩ := hls.exists_language_of_mem hf
      exact ih inner (Nat.lt_succ_self inner) hL (hfields _ hlanguage)
    | choice lookup hL =>
      obtain ⟨inner, rfl, hcontent⟩ := Language.hasText_of_entry htext
      rw [loads_object_iff, List.forall_mem_singleton]
      exact ih inner (Nat.lt_succ_self inner) hL hcontent

end Json

/-! ## What is read can be written -/

namespace Node

variable {s : Text} {m : Node}

/-- What is read is spelled within the brackets that a document may open. -/
theorem hasText_of_parse (h : parse s = .ok m) : m.language.HasText Document.levels := by
  obtain ⟨t, r, -, ht, -⟩ := isDocument_of_parse h
  exact ⟨t, r, ht⟩

/-- What is read is the model of a value that can be loaded. -/
theorem exists_loads_of_parse (h : parse s = .ok m) :
    ∃ j, m.IsWritten j ∧ j.Loads Document.levels := by
  have htext := hasText_of_parse h
  obtain ⟨j, hj⟩ := exists_isWritten m (isSome_toText?_of_isInhabited htext.isInhabited)
  exact ⟨j, hj, hj.spelled.loads htext⟩

theorem isBlank_of_layout {layout : Json.Layout}
    (h : layout = Json.compact ∨ layout = Json.pretty) : layout.IsBlank := by
  rcases h with rfl | rfl
  · exact Json.isBlank_compact
  · exact Json.isBlank_pretty

theorem finite_of_parse (h : parse s = .ok m) : ∀ x ∈ m.numbers, x.isFinite = true := by
  obtain ⟨j, hj, hloads⟩ := exists_loads_of_parse h
  exact hj.numbers ▸ hloads.2

theorem isSome_toText?_of_parse (h : parse s = .ok m) :
    ∀ file, mesh file ∈ m.parts → file.toText?.isSome = true :=
  isSome_toText?_of_isInhabited (hasText_of_parse h).isInhabited

/-- The text of a model that was read keeps to the brackets of a document, and is read as the model
with its numbers read again. -/
theorem exists_print?_of_parse (h : parse s = .ok m) {layout : Json.Layout}
    (hlayout : layout = Json.compact ∨ layout = Json.pretty) :
    ∃ t, m.print? layout = some t ∧ Json.nesting t ≤ Document.levels ∧ parse t = .ok m.reread := by
  obtain ⟨j, hj, hloads⟩ := exists_loads_of_parse h
  have hblank := isBlank_of_layout hlayout
  refine ⟨j.print layout, by rw [print?, hj.toJson?]; rfl, ?_,
    parse_of_isWritten hblank (isSome_toText?_of_parse h) hj hloads⟩
  rw [Json.nesting_print hblank]
  exact hloads.1

theorem reread_of_parse (h : parse s = .ok m) (hread : ∀ x ∈ m.numbers, x.IsReadBack) :
    m.reread = m := (reread_eq_self_iff (finite_of_parse h)).mpr hread

end Node

/-! ## Loading, saving, and loading again -/

namespace Files

/-- Loads a model, puts it into a file, and loads it from there. -/
def reloadModel {m : Type → Type} [Monad m] [Host m] (file target : Path) :
    ExceptT Fault m Node := do
  let model ← loadModel file
  saveModel model target
  loadModel target

variable {m : Machine} {model back : Node} {t : Text} {file target : Path} {disk : Disk}
  {cause : OsError}

theorem does_saveModel_ok (hprint : model.print? Json.pretty = some t)
    (hwrite : m.disk.write m.here target (Utf8.encode t) = .ok disk) :
    Does (saveModel model target).run m (.ok ()) { m with disk } := by
  rw [saveModel, hprint]
  exact does_accessing target (does_writeFile_ok hwrite)

theorem does_saveModel_error (hprint : model.print? Json.pretty = some t)
    (hwrite : m.disk.write m.here target (Utf8.encode t) = .error cause) :
    Does (saveModel model target).run m (.error (.access target cause)) m := by
  rw [saveModel, hprint]
  exact does_accessing target (does_writeFile_error hwrite)

/-- The model in a file that holds a text. -/
theorem modelIn_of_read (hread : m.disk.read m.here file = .ok (Utf8.encode t)) :
    m.modelIn file = (Node.parse t).mapError .document := by
  rw [Machine.modelIn, Machine.textIn, hread]
  simp only [Except.mapError, Except.bind, Utf8.decode?_encode]

theorem exists_parse_of_modelIn (h : m.modelIn file = .ok model) :
    ∃ s, Node.parse s = .ok model := by
  rw [Machine.modelIn] at h
  cases htext : m.textIn file with
  | error fault =>
    rw [htext] at h
    cases h
  | ok s =>
    rw [htext, Except.bind] at h
    cases hparse : Node.parse s with
    | error cause =>
      rw [hparse] at h
      cases h
    | ok model' =>
      rw [hparse] at h
      cases h
      exact ⟨s, hparse⟩

/-- What comes back where a model is loaded again from where its text is put. Nothing does if the
machine does not let the file be written. -/
structure Reloads (m : Machine) (file target : Path) (back : Node) (t : Text) : Prop where
  ok : ∀ disk, m.disk.write m.here target (Utf8.encode t) = .ok disk →
    m.answer (reloadModel file target).run = .ok back
      ∧ (m.after (reloadModel file target).run).disk.read m.here target = .ok (Utf8.encode t)
  error : ∀ cause, m.disk.write m.here target (Utf8.encode t) = .error cause →
    m.answer (reloadModel file target).run = .error (.access target cause)

theorem reloads_of_print? (hload : m.modelIn file = .ok model)
    (hprint : model.print? Json.pretty = some t) (hparse : Node.parse t = .ok back) :
    Reloads m file target back t := by
  have hloaded : Does (loadModel file).run m (.ok model) m := hload ▸ does_loadModel m file
  refine ⟨fun disk hwrite => ?_, fun cause hwrite => ?_⟩
  · have hread := Disk.read_write hwrite
    have hagain : Does (loadModel target).run { m with disk } (.ok back) { m with disk } := by
      have hmodel : { m with disk }.modelIn target = .ok back := by
        rw [modelIn_of_read hread, hparse]
        rfl
      exact hmodel ▸ does_loadModel { m with disk } target
    have hdoes : Does (reloadModel file target).run m (.ok back) { m with disk } :=
      hloaded.bind_ok ((does_saveModel_ok hprint hwrite).bind_ok hagain)
    obtain ⟨_, _, _, hafter⟩ := hdoes.alike
    rw [hafter]
    exact ⟨hdoes.answer_eq, hread⟩
  · have hdoes : Does (reloadModel file target).run m (.error (.access target cause)) m :=
      hloaded.bind_ok (does_saveModel_error hprint hwrite).bind_error
    exact hdoes.answer_eq

end Files

/-! ## Models are kept -/

namespace Node

/-- A model can be written, and it comes back from what is written as far as its numbers do. -/
structure IsKept (m : Node) : Prop where
  finite : ∀ x ∈ m.numbers, x.isFinite = true
  /-- The paths of mesh files are texts. -/
  paths : ∀ file, mesh file ∈ m.parts → file.toText?.isSome = true
  /-- There is a text of the model in either layout. It opens no more brackets than a document may,
  and it is read as the model with its numbers read again. -/
  written : ∀ layout, layout = Json.compact ∨ layout = Json.pretty →
    ∃ t, m.print? layout = some t ∧ Json.nesting t ≤ 127 ∧ parse t = .ok m.reread
  /-- It is the model itself if the numbers are read back. -/
  same : (∀ x ∈ m.numbers, x.IsReadBack) → ∀ layout t,
    layout = Json.compact ∨ layout = Json.pretty → m.print? layout = some t → parse t = .ok m
  /-- Whatever is then read from a text of the model has the same text again, and the same
  scripts. -/
  again : (∀ x ∈ m.numbers, x.IsReadBack) → ∀ layout t m',
    layout = Json.compact ∨ layout = Json.pretty → m.print? layout = some t → parse t = .ok m' →
      m'.print? layout = some t ∧ ∀ settings, m'.render settings = m.render settings

/-- However a model is spelled, what is read can be written and read again, bit for bit if its
numbers are read back, and so it is with files. -/
theorem isKept_of_parse :
    (∀ s m, parse s = .ok m → m.IsKept)
      ∧ ∀ (machine : Machine) (file target : Path) (m : Node),
        machine.answer (Files.loadModel file).run = .ok m →
          m.IsKept ∧ ∃ t, m.print? Json.pretty = some t
            ∧ Files.Reloads machine file target m.reread t
            ∧ ((∀ x ∈ m.numbers, x.IsReadBack) → Files.Reloads machine file target m t) := by
  have hkept {s : Text} {m : Node} (h : parse s = .ok m) : m.IsKept := by
    have hsame (hread : ∀ x ∈ m.numbers, x.IsReadBack) {layout : Json.Layout} {t : Text}
        (hlayout : layout = Json.compact ∨ layout = Json.pretty)
        (hprint : m.print? layout = some t) : parse t = .ok m := by
      obtain ⟨t', hprint', -, hparse⟩ := exists_print?_of_parse h hlayout
      rw [hprint] at hprint'
      cases hprint'
      rwa [reread_of_parse h hread] at hparse
    refine ⟨finite_of_parse h, isSome_toText?_of_parse h,
      fun layout hlayout => exists_print?_of_parse h hlayout,
      fun hread layout t hlayout hprint => hsame hread hlayout hprint,
      fun hread layout t m' hlayout hprint hparse => ?_⟩
    rw [hsame hread hlayout hprint] at hparse
    cases hparse
    exact ⟨hprint, fun _ => rfl⟩
  refine ⟨fun s m h => hkept h, fun machine file target m hload => ?_⟩
  rw [(Files.does_loadModel machine file).answer_eq] at hload
  obtain ⟨s, hs⟩ := Files.exists_parse_of_modelIn hload
  obtain ⟨t, hprint, -, hparse⟩ := exists_print?_of_parse hs (Or.inr rfl)
  refine ⟨hkept hs, t, hprint, Files.reloads_of_print? hload hprint hparse, fun hread => ?_⟩
  rw [reread_of_parse hs hread] at hparse
  exact Files.reloads_of_print? hload hprint hparse

/-- A record without names, an entry that nobody asks for, fields in another order, an escape, and
numbers in several forms. -/
def oddlySpelled : Text :=
  "\x7b \"difference\": [\x7b\"import\": \"\\u00e4.stl\"\x7d, [\x7b\"cube\": ".toList
    ++ "\x7b\"x\": null, \"center\": true, \"size\": [1e1, 0.50, -0]\x7d\x7d]] \x7d".toList

/-- The document as it is written. -/
def plainlySpelled : Text :=
  "\x7b\"difference\":\x7b\"parent\":\x7b\"import\":\"ä.stl\"\x7d,\"children\":[".toList
    ++ "\x7b\"cube\":\x7b\"size\":[10.0,0.5,-0.0],\"center\":true\x7d\x7d]\x7d\x7d".toList

theorem isKept_of_parse_oddlySpelled :
    let machine : Machine := {
      disk := ⟨[([Utf8.encode "in.json".toList], .file (Utf8.encode oddlySpelled))]⟩ }
    let file := Path.ofString "in.json"
    let target := Path.ofString "out.json"
    ∃ m, parse oddlySpelled = .ok m ∧ m.IsKept ∧ m.print? Json.compact = some plainlySpelled
      ∧ parse plainlySpelled = .ok m ∧ machine.answer (Files.loadModel file).run = .ok m
      ∧ machine.answer (Files.reloadModel file target).run = .ok m := by
  intro machine file target
  have hprint : (parse oddlySpelled).toOption.bind (print? Json.compact)
      = some plainlySpelled := by
    decide +kernel
  obtain ⟨hparsed, hloaded⟩ := isKept_of_parse
  cases hparse : parse oddlySpelled with
  | error cause =>
    rw [hparse] at hprint
    cases hprint
  | ok m =>
    rw [hparse] at hprint
    have hkept := hparsed oddlySpelled m hparse
    have hread : ∀ x ∈ m.numbers, x.IsReadBack := by
      have hnumbers : (parse oddlySpelled).toOption.map
          (fun m => m.numbers.all fun x => decide x.IsReadBack) = some true := by
        decide +kernel
      rw [hparse] at hnumbers
      simpa using Option.some.inj hnumbers
    have hagain := hkept.same hread Json.compact _ (Or.inl rfl) hprint
    have hload : machine.answer (Files.loadModel file).run = .ok m := by
      have hread : machine.disk.read machine.here file = .ok (Utf8.encode oddlySpelled) := by
        decide +kernel
      rw [(Files.does_loadModel machine file).answer_eq, Files.modelIn_of_read hread, hparse]
      rfl
    obtain ⟨-, t, -, -, hreloads⟩ := hloaded machine file target m hload
    have hplace : machine.disk.locateFile machine.here target
        = .ok [Utf8.encode "out.json".toList] := by
      decide +kernel
    have hreloaded := (hreloads hread).ok _ (Disk.write_eq_ok_iff.mpr ⟨_, hplace, rfl⟩)
    exact ⟨m, rfl, hkept, hprint, hagain, hload, hreloaded.1⟩

end Node

end SolidScript
