import SolidScript.Toml.Reader

/-!
# Names in settings files

No name stands twice in the entries of a settings file (`nodup_names_of_parse?`): every statement
keeps the names of the entries apart (`nodup_names_of_add`), whether it adds an entry, puts a table
in the place of another, or moves one to the end.
-/

namespace SolidScript.Toml

namespace Entries

/-- The names of entries, in order. -/
def names (es : Entries) : List Text := es.map (·.1)

theorem lookup_eq_none_iff {es : Entries} {name : Text} :
    es.lookup name = none ↔ name ∉ es.names := by
  rw [List.lookup_eq_none_iff, names, List.mem_map]
  grind

theorem mem_names_put {es : Entries} {name n : Text} {value : Toml}
    (h : n ∈ (es.put name value).names) : n = name ∨ n ∈ es.names := by
  induction es with
  | nil => exact .inl (List.mem_singleton.mp h)
  | cons e es ih =>
    obtain ⟨k, v⟩ := e
    rw [put] at h
    split at h
    next => exact .inr h
    next =>
      rcases List.mem_cons.mp h with rfl | h
      · exact .inr List.mem_cons_self
      · exact (ih h).imp_right (List.mem_cons_of_mem k)

theorem nodup_names_put {es : Entries} (h : es.names.Nodup) (name : Text) (value : Toml) :
    (es.put name value).names.Nodup := by
  induction es with
  | nil => exact List.pairwise_singleton _ name
  | cons e es ih =>
    obtain ⟨k, v⟩ := e
    obtain ⟨hk, hes⟩ := List.nodup_cons.mp h
    rw [put]
    split
    next => exact h
    next hne =>
      refine List.nodup_cons.mpr ⟨fun hmem => ?_, ih hes⟩
      exact (mem_names_put hmem).elim hne hk

theorem nodup_names_append {es : Entries} (h : es.names.Nodup) {name : Text}
    (hname : name ∉ es.names) (value : Toml) : (es ++ [(name, value)]).names.Nodup := by
  rw [names, List.map_append, List.map_singleton]
  exact List.nodup_append.mpr ⟨h, List.pairwise_singleton _ name, by grind [names]⟩

theorem nodup_names_without {es : Entries} (h : es.names.Nodup) (name : Text) :
    (es.without name).names.Nodup ∧ name ∉ (es.without name).names := by
  refine ⟨h.sublist (List.filter_sublist.map _), fun hmem => ?_⟩
  obtain ⟨e, he, rfl⟩ := List.mem_map.mp hmem
  simpa using (List.mem_filter.mp he).2

end Entries

open Entries

/-- A change keeps names apart. -/
def Keeps (change : Origin → Entries → Option Entries) : Prop :=
  ∀ origin es es', change origin es = some es' → es.names.Nodup → es'.names.Nodup

theorem keeps_changeAt {change : Origin → Entries → Option Entries} (h : Keeps change)
    (dotted : Bool) (path : List Text) : Keeps (changeAt dotted change path) := by
  intro origin es es' hes hnodup
  cases path with
  | nil => exact h origin es es' hes hnodup
  | cons name path =>
    rw [changeAt] at hes
    split at hes
    next =>
      obtain ⟨inner, -, rfl⟩ := Option.map_eq_some_iff.mp hes
      exact nodup_names_put hnodup name _
    next =>
      split at hes
      next =>
        obtain ⟨inner, -, rfl⟩ := Option.map_eq_some_iff.mp hes
        exact nodup_names_put hnodup name _
      next => cases hes
    next =>
      split at hes
      next => cases hes
      next =>
        obtain ⟨last, -, rfl⟩ := Option.map_eq_some_iff.mp hes
        exact nodup_names_put hnodup name _
    next => cases hes

theorem keeps_enter (key : Key) (value : Toml) : Keeps (enter key value) := by
  refine keeps_changeAt (fun origin es es' hes hnodup => ?_) true key.path
  split at hes
  next => cases hes
  next =>
    split at hes
    next => cases hes
    next hnone =>
      cases hes
      have hlookup := lookup_eq_none_iff.mp (Option.not_isSome_iff_eq_none.mp hnone)
      exact nodup_names_append hnodup hlookup value

theorem keeps_openTable (name : Text) : Keeps fun _ => openTable name := by
  intro _ es es' hes hnodup
  change openTable name es = some es' at hes
  rw [openTable] at hes
  split at hes
  next hnone =>
    cases hes
    exact nodup_names_append hnodup (lookup_eq_none_iff.mp hnone) _
  next =>
    cases hes
    obtain ⟨hwithout, hnot⟩ := nodup_names_without hnodup name
    exact nodup_names_append hwithout hnot _
  next => cases hes

theorem keeps_openAnother (name : Text) : Keeps fun _ => openAnother name := by
  intro _ es es' hes hnodup
  change openAnother name es = some es' at hes
  rw [openAnother] at hes
  split at hes
  next hnone =>
    cases hes
    exact nodup_names_append hnodup (lookup_eq_none_iff.mp hnone) _
  next =>
    cases hes
    exact nodup_names_put hnodup name _
  next => cases hes

/-- A statement keeps names apart. -/
theorem nodup_names_of_add {draft draft' : Draft} {statement : Statement}
    (h : draft.add statement = some draft') (hnodup : draft.entries.names.Nodup) :
    draft'.entries.names.Nodup := by
  cases statement with
  | entry key value =>
    obtain ⟨es, hes, rfl⟩ := Option.map_eq_some_iff.mp h
    exact keeps_changeAt (keeps_enter key value) false _ _ _ _ hes hnodup
  | header key =>
    obtain ⟨es, hes, rfl⟩ := Option.map_eq_some_iff.mp h
    exact keeps_changeAt (keeps_openTable key.name) false _ _ _ _ hes hnodup
  | arrayHeader key =>
    obtain ⟨es, hes, rfl⟩ := Option.map_eq_some_iff.mp h
    exact keeps_changeAt (keeps_openAnother key.name) false _ _ _ _ hes hnodup

theorem nodup_names_of_foldlM {statements : List Statement} {draft draft' : Draft}
    (h : statements.foldlM Draft.add draft = some draft') (hnodup : draft.entries.names.Nodup) :
    draft'.entries.names.Nodup := by
  induction statements generalizing draft with
  | nil =>
    cases h
    exact hnodup
  | cons statement statements ih =>
    obtain ⟨next, hnext, hrest⟩ := Option.bind_eq_some_iff.mp h
    exact ih hrest (nodup_names_of_add hnext hnodup)

/-- No name stands twice in a settings file. -/
theorem nodup_names_of_parse? {t : Text} {es : Entries} (h : parse? t = some es) :
    es.names.Nodup := by
  rw [parse?] at h
  split at h
  next => cases h
  next statements _ =>
    obtain ⟨draft, hdraft, rfl⟩ := Option.map_eq_some_iff.mp h
    exact nodup_names_of_foldlM hdraft List.nodup_nil

end SolidScript.Toml
