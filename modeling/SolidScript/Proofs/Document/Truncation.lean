import SolidScript.Proofs.Document.Reload
import SolidScript.Proofs.Json.Truncated

/-!
# Documents that break off

A document that breaks off is never taken for a smaller one, nor for one with another fault:
wherever the text of a model ends too early, that is what is found (`parse_of_isCut`). So it is with
the file that the text is read from.

The main statement is `parse_prefix_truncated`.
-/

namespace SolidScript

open Machine

namespace Node

theorem parse_of_isCut {m : Node} {j : Json} {layout : Json.Layout} (hlayout : layout.IsBlank)
    (h : m.IsWritten j) (hloads : j.Loads Document.levels) {p : Text}
    (hp : Json.IsCut p (j.print layout)) : Node.parse p = .error .truncated := by
  rw [Node.parse, Json.readAll_cut hlayout h.fits hloads hp]

/-- **A document that breaks off is truncated**, as a text and in a file, wherever it breaks off. -/
theorem parse_prefix_truncated (m : Node) (hfinite : ∀ x ∈ m.numbers, x.isFinite = true)
    (hpaths : ∀ file, mesh file ∈ m.parts → file.toText?.isSome = true) {layout : Json.Layout}
    (hlayout : layout = Json.compact ∨ layout = Json.pretty) :
    ∃ t, m.print? layout = some t ∧ (Json.nesting t ≤ 127 →
      ∀ p, p <+: t → p ≠ t → Node.parse p = .error .truncated
        ∧ ∀ (machine : Machine) file,
          machine.disk.read machine.here file = .ok (Utf8.encode p) →
          machine.answer (Files.loadModel file).run = .error (.document .truncated)) := by
  have hblank : layout.IsBlank := isBlank_of_layout hlayout
  obtain ⟨j, hj⟩ := exists_isWritten m hpaths
  refine ⟨j.print layout, by rw [Node.print?, hj.toJson?]; rfl, fun hnesting p hfront hne => ?_⟩
  have hloads : j.Loads Document.levels := by
    rw [Json.nesting_print hblank] at hnesting
    exact ⟨hnesting, hj.numbers ▸ hfinite⟩
  have hparse := parse_of_isCut hblank hj hloads (Json.isCut_iff.mpr ⟨hfront, hne⟩)
  refine ⟨hparse, fun machine file hread => ?_⟩
  rw [(Files.does_loadModel machine file).answer_eq, Files.modelIn_of_read hread, hparse]
  rfl

/-- A document that breaks off in a number, or before it has begun. -/
theorem parse_prefix_truncated_of_great_cone :
    let m : Node := .difference (.cylinder ⟨0x7E37E43C8800759C⟩ .zero .zero true)
      [.literal "\"\x7d".toList, .mesh (.ofString "ä.stl")]
    ∃ t, m.print? Json.compact = some t
      ∧ t.take 46 = "\x7b\"difference\":\x7b\"parent\":\x7b\"cylinder\":\x7b\"h\":1e+30".toList
      ∧ Node.parse (t.take 46) = .error .truncated ∧ Node.parse [] = .error .truncated := by
  intro m
  have hpaths : ∀ file, mesh file ∈ m.parts → file.toText?.isSome = true := by
    intro file hfile
    have hmem : file = .ofString "ä.stl" := by simpa [m, parts, partsAll] using hfile
    rw [hmem]
    decide +kernel
  have hfinite : ∀ x ∈ m.numbers, x.isFinite = true := by decide +kernel
  have hnesting : (m.print? Json.compact).map Json.nesting = some 4 := by decide +kernel
  have htake : (m.print? Json.compact).map (List.take 46)
      = some "\x7b\"difference\":\x7b\"parent\":\x7b\"cylinder\":\x7b\"h\":1e+30".toList := by
    decide +kernel
  have hlength : (m.print? Json.compact).map (decide <| 46 < ·.length) = some true := by
    decide +kernel
  obtain ⟨t, hprint, hcut⟩ := parse_prefix_truncated m hfinite hpaths (Or.inl rfl)
  rw [hprint, Option.map_some, Option.some_inj] at hnesting htake hlength
  have hlength : 46 < t.length := of_decide_eq_true hlength
  have hcut := hcut (by rw [hnesting]; decide)
  refine ⟨t, hprint, htake, (hcut _ (List.take_prefix 46 t) ?_).1, (hcut [] List.nil_prefix ?_).1⟩
  · intro h
    have := congrArg List.length h
    rw [List.length_take] at this
    omega
  · rintro rfl
    cases hlength

end Node

end SolidScript
