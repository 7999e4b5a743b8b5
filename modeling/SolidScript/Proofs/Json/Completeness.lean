import SolidScript.Proofs.Json.ReadBack
import SolidScript.Proofs.Json.Soundness

/-!
# What is spelled is read

Wherever a text of the language of a value stands, the guided reader returns the value and what is
left behind it (`findsAll_read`), as long as that does not go on with a numeral. Again there is one
lemma for each function of the reader. Its fuel lasts because everything that is spelled takes up a
character at least (`Starts`).
-/

namespace SolidScript.Json

open SolidScript.Json.Language (Items Fields)

/-! ## Items and keys -/

section Gaps

variable {first : Bool} {t u r : Text}

theorem nextItem?_close (h : Blanks t (']' :: r)) : nextItem? first t = .ok none := by
  obtain ⟨bs, hbs, rfl⟩ := h
  exact nextItem?_end hbs first

theorem nextItem?_eq (h : Gap first t u) (hu : Starts u r) :
    nextItem? first t = .ok (some u) := by
  obtain ⟨c, v, rfl, hc, hclose⟩ := hu.exists_cons
  cases first with
  | true =>
    rw [nextItem?, Blanks.skipBlanks_cons h hc]
    simp [hclose]
  | false =>
    obtain ⟨w, hcomma, hblank⟩ := h
    rw [nextItem?, hcomma.skipBlanks_cons rfl]
    simp [hblank.skipBlanks_cons hc, hclose]

theorem nextKey?_close {fuel : Nat} (h : Blanks t ('\x7d' :: r)) :
    nextKey? fuel first t = .ok none := by
  obtain ⟨bs, hbs, rfl⟩ := h
  exact nextKey?_end hbs fuel first

theorem nextKey?_eq {fuel : Nat} {key : Text} (h : Gap first t ('"' :: u))
    (hkey : StringTail u key r) (hfuel : u.length < fuel) :
    nextKey? fuel first t = .ok (some (key, r)) := by
  have hread := hkey.stringBody_eq hfuel
  cases first with
  | true =>
    rw [nextKey?, Blanks.skipBlanks_cons h rfl]
    simp [hread, Except.map]
  | false =>
    obtain ⟨w, hcomma, hblank⟩ := h
    rw [nextKey?, hcomma.skipBlanks_cons rfl]
    simp [hblank.skipBlanks_cons rfl, hread, Except.map]

theorem Key.shorter {key : Text} (h : Key t key r) : r.length < t.length := by
  obtain ⟨u, v, rfl, hstring, hcolon⟩ := h
  have hlength := hstring.shorter
  have hrest := hcolon.length_le
  rw [List.length_cons] at hrest ⊢
  omega

theorem variantKey_eq {fuel : Nat} {variants : List (Text × Shape)} {key : Text} {content : Shape}
    (h : Blanks t u) (hkey : Key u key r) (lookup : variants.lookup key = some content)
    (hfuel : t.length < fuel) : variantKey fuel variants t = .ok ((key, content), r) := by
  obtain ⟨v, w, rfl, hstring, hcolon⟩ := hkey
  have hlength := h.length_le
  rw [List.length_cons] at hlength
  rw [variantKey, h.skipBlanks_cons rfl]
  simp [hstring.stringBody_eq (show v.length < fuel by omega), lookup,
    expectColon_eq_ok_iff.mpr hcolon, Except.map]

end Gaps

/-! ## Values without brackets -/

section Scalars

variable {levels : Nat} {t u r : Text}

theorem Language.number.starts {x : Binary64} (h : Language.number x levels t r) : Starts t r := by
  obtain ⟨negative, p, d, hnumeral, -⟩ := h
  exact hnumeral.starts

theorem Language.flag.starts {b : Bool} (h : Language.flag b levels t r) : Starts t r := by
  subst h
  cases b with
  | true => exact ⟨⟨'t', _, rfl, rfl, by decide⟩, by simp; omega⟩
  | false => exact ⟨⟨'f', _, rfl, rfl, by decide⟩, by simp; omega⟩

theorem Language.string.starts {s : Text} (h : Language.string s levels t r) : Starts t r := by
  obtain ⟨u, rfl, hstring⟩ := h
  exact ⟨⟨'"', u, rfl, rfl, by decide⟩, Nat.lt_succ_of_lt hstring.shorter⟩

variable (fuel : Nat) (expected : Text)

theorem readNumber_eq {x : Binary64} (h : Language.number x levels u r) (hblank : Blanks t u)
    (hr : IsNumeralEnd r) : readNumber fuel expected t = .ok (x, r) := by
  have hread := h.numberValue_eq hr
  obtain ⟨negative, p, d, hnumeral, -⟩ := h
  obtain ⟨c, v, rfl, hc⟩ := hnumeral.exists_cons
  rw [readNumber, hblank.skipBlanks_cons (isBlank_of_start hc)]
  simp only [if_pos hc, hread]

theorem readFlag_eq {b : Bool} (h : Language.flag b levels u r) (hblank : Blanks t u) :
    readFlag fuel expected t = .ok (b, r) := by
  have hread := readFlag_print fuel expected b r
  obtain ⟨⟨c, v, htext, hc, -⟩, -⟩ := h.starts
  rw [← h, htext, readFlag, skipBlanks_cons hc] at hread
  rw [htext] at hblank
  rw [readFlag, hblank.skipBlanks_cons hc, hread]

theorem readString_eq {s : Text} (h : Language.string s levels u r) (hblank : Blanks t u)
    (hfuel : t.length < fuel) : readString fuel expected t = .ok (s, r) := by
  obtain ⟨v, rfl, hstring⟩ := h
  have hlength := hblank.length_le
  rw [List.length_cons] at hlength
  rw [readString, hblank.skipBlanks_cons rfl]
  simp only [if_pos, hstring.stringBody_eq (show v.length < fuel by omega)]

end Scalars

/-! ## Arrays -/

/-- Whatever is spelled at the start of a text is returned. -/
structure FindsAll (R : Json → Language → Prop) (levels fuel : Nat) (value : Reader Json) :
    Prop where
  starts : ∀ {j L u r}, R j L → L levels u r → Starts u r
  eq : ∀ {j L t u r}, R j L → L levels u r → Blanks t u → IsNumeralEnd r → t.length < fuel →
    value t = .ok (j, r)

theorem Language.Items.isNumeralEnd {levels : Nat} {Ls : List Language} {t r : Text}
    (h : Items levels false Ls t r) : IsNumeralEnd t := by
  cases h with
  | close h => exact isNumeralEnd_of_blanks h (Or.inr (Or.inl rfl))
  | item hgap => exact isNumeralEnd_of_gap hgap

theorem Language.Items.shorter {levels : Nat} {first : Bool} {Ls : List Language} {t r : Text}
    (h : Items levels first Ls t r)
    (hLs : ∀ L ∈ Ls, ∀ u v, L levels u v → Starts u v) : r.length < t.length := by
  induction h with
  | close h => exact h.length_le
  | item hgap h _ ih =>
    obtain ⟨hfirst, hothers⟩ := List.forall_mem_cons.mp hLs
    exact Nat.lt_of_lt_of_le (Nat.lt_trans (ih hothers) (hfirst _ _ h).shorter) hgap.length_le

theorem itemsFrom_eq {R : Json → Language → Prop} {levels limit : Nat} {item : Reader Json}
    (hitem : FindsAll R levels limit item) {rows : List (Json × Language)}
    (hrows : ∀ row ∈ rows, R row.1 row.2) {done : List Json} {fuel : Nat} {t r : Text}
    (h : Items levels done.isEmpty (rows.map Prod.snd) t r) (hlimit : t.length < limit)
    (hfuel : t.length < fuel) :
    itemsFrom item fuel done t = .ok (done.reverse ++ rows.map Prod.fst, r) := by
  induction rows generalizing done fuel t with
  | nil =>
    obtain ⟨fuel, rfl⟩ := exists_fuel_eq hfuel
    cases h with
    | close hclose =>
      rw [itemsFrom, nextItem?_close hclose, List.map_nil, List.append_nil]
      simp only [closeArray_eq_ok_iff.mpr hclose]
      rfl
  | cons row rows ih =>
    obtain ⟨fuel, rfl⟩ := exists_fuel_eq hfuel
    obtain ⟨hfirst, hothers⟩ := List.forall_mem_cons.mp hrows
    cases h with
    | item hgap h hrest =>
      have hstarts := hitem.starts hfirst h
      have hlength := hgap.length_le
      have hshorter := hstarts.shorter
      have hread := hitem.eq hfirst h (blanks_refl _) hrest.isNumeralEnd (by omega)
      have hitems := @ih hothers (row.1 :: done) fuel _ hrest (by omega) (by omega)
      rw [itemsFrom, nextItem?_eq hgap hstarts]
      simp only [hread, hitems]
      simp

theorem vectorFrom_eq {levels fuel : Nat} {xs : List Binary64} {first : Bool} {t r : Text}
    (h : Items levels first (xs.map Language.number) t r) :
    vectorFrom fuel xs.length first t = .ok (xs.map Json.number, r) := by
  induction xs generalizing first t with
  | nil =>
    cases h with
    | close hclose =>
      unfold vectorFrom
      rw [nextItem?_close hclose]
      simp only [List.length_nil, closeArray_eq_ok_iff.mpr hclose]
      rfl
  | cons x xs ih =>
    cases h with
    | item hgap h hrest =>
      have hread := readNumber_eq fuel Shape.number.expected h (blanks_refl _) hrest.isNumeralEnd
      unfold vectorFrom
      rw [nextItem?_eq hgap h.starts]
      simp only [List.length_cons, hread, ih hrest]
      rfl

theorem tupleFrom_eq {R : Shape → Json → Language → Prop} {levels limit : Nat}
    {value : Shape → Reader Json} (hvalue : ∀ shape, FindsAll (R shape) levels limit (value shape))
    {title : Shape.Title} {total read : Nat} {fields : List (Text × Shape)}
    {fs : List (Text × Json)} {ls : List (Text × Language)} (hls : FieldsSpelled R fields fs ls)
    {t r : Text} (h : Items levels (decide (read = 0)) (ls.map Prod.snd) t r)
    (hlimit : t.length < limit) : tupleFrom value title total read fields t = .ok (fs, r) := by
  induction hls generalizing read t with
  | nil =>
    cases h with
    | close hclose =>
      rw [tupleFrom, closeArray_eq_ok_iff.mpr hclose]
      rfl
  | @cons name shape j L fields fs ls hL _ ih =>
    cases h with
    | item hgap h hrest =>
      have hstarts := (hvalue shape).starts hL h
      have hlength := hgap.length_le
      have hshorter := hstarts.shorter
      have hread := (hvalue shape).eq hL h (blanks_refl _) hrest.isNumeralEnd (by omega)
      have hfields := @ih (read + 1) _ hrest (by omega)
      rw [tupleFrom, nextItem?_eq hgap hstarts]
      simp only [hread, hfields]

/-! ## Objects -/

section Entries

variable {R : Shape → Json → Language → Prop} {fields : List (Text × Shape)}
  {fs : List (Text × Json)} {ls : List (Text × Language)}

theorem Language.Fields.isNumeralEnd {levels : Nat} {names : List Text}
    {ls : List (Text × Language)} {t r : Text} (h : Fields levels names false ls t r) :
    IsNumeralEnd t := by
  cases h with
  | close h => exact isNumeralEnd_of_blanks h (Or.inr (Or.inr rfl))
  | field hgap => exact isNumeralEnd_of_gap hgap
  | unknown hgap => exact isNumeralEnd_of_gap hgap

theorem Language.Fields.shorter {levels : Nat} {names : List Text} {first : Bool}
    {ls : List (Text × Language)} {t r : Text} (h : Fields levels names first ls t r)
    (hls : ∀ f ∈ ls, ∀ u v, f.2 levels u v → Starts u v) : r.length < t.length := by
  induction h with
  | close h => exact h.length_le
  | @field _ missing _ _ _ _ _ _ _ _ hgap hkey hmissing hblank h _ ih =>
    have hrest := ih fun f hf => hls f (List.mem_of_mem_filter hf)
    have hshorter := (hls _ hmissing _ _ h).shorter
    have hkeyLength := hkey.shorter
    have hgapLength := hgap.length_le
    have hblankLength := hblank.length_le
    omega
  | unknown hgap hkey _ hblank h _ ih =>
    have hrest := ih hls
    have hshorter := h.shorter
    have hkeyLength := hkey.shorter
    have hgapLength := hgap.length_le
    have hblankLength := hblank.length_le
    omega

theorem pickFields_eq {found : List (Text × Json)} (h : FieldsSpelled R fields fs ls)
    (hfound : ∀ f ∈ fs, found.lookup f.1 = some f.2) : pickFields found fields = .ok fs := by
  induction h with
  | nil => rfl
  | cons _ _ ih =>
    obtain ⟨hfirst, hothers⟩ := List.forall_mem_cons.mp hfound
    rw [pickFields, hfirst]
    simp only [ih hothers]
    rfl

/-- If nothing is missing, every field has been found with its value. -/
theorem lookup_found_of_missing (names : (fields.map Prod.fst).Nodup)
    (hls : FieldsSpelled R fields fs ls) {done : List (Text × Json × Language)}
    (hdone : ∀ f ∈ done, (f.1, f.2.1) ∈ fs) (h : missing done ls = []) :
    ∀ f ∈ fs, (found done).lookup f.1 = some f.2 := by
  intro f hf
  rw [← hls.values_names_eq] at names
  have hname : f.1 ∈ ls.map Prod.fst := by
    rw [hls.names_eq, ← hls.values_names_eq]
    exact List.mem_map_of_mem hf
  obtain ⟨l, hl, hl'⟩ := List.mem_map.mp hname
  cases hlookup : done.lookup f.1 with
  | none =>
    have hmem : l ∈ missing done ls := List.mem_filter.mpr ⟨hl, by rw [hl', hlookup]; rfl⟩
    rw [h] at hmem
    cases hmem
  | some value =>
    have hsame := List.inj_on_of_nodup_map names (hdone _ (mem_of_lookup hlookup)) hf rfl
    rw [lookup_found, hlookup, ← hsame]
    rfl

/-- Fields come in any order, and other entries between them. -/
theorem entriesFrom_eq {levels limit : Nat} {value : Shape → Reader Json}
    (hvalue : ∀ shape, FindsAll (R shape) levels limit (value shape))
    (names : (fields.map Prod.fst).Nodup) (hls : FieldsSpelled R fields fs ls)
    {done : List (Text × Json × Language)} (hdone : ∀ f ∈ done, (f.1, f.2.1) ∈ fs) {first : Bool}
    {fuel : Nat} {t r : Text} (h : Fields levels (ls.map Prod.fst) first (missing done ls) t r)
    (hlimit : t.length < limit) (hfuel : t.length < fuel) :
    entriesFrom value fields fuel first (found done) t = .ok (fs, r) := by
  generalize hmissing : missing done ls = rest at h
  induction h generalizing done fuel with
  | close hclose =>
    obtain ⟨fuel, rfl⟩ := exists_fuel_eq hfuel
    have hfound := lookup_found_of_missing names hls hdone hmissing
    rw [entriesFrom, nextKey?_close hclose]
    simp only [pickFields_eq hls hfound, closeObject_eq_ok_iff.mpr hclose]
    rfl
  | @field first rest name L t u v w x r hgap hkey hmem hblank h hrest ih =>
    obtain ⟨fuel, rfl⟩ := exists_fuel_eq hfuel
    subst hmissing
    obtain ⟨hin, hnone⟩ := List.mem_filter.mp hmem
    obtain ⟨shape, j, hfield, hj, hL⟩ := hls.exists_of_mem hin
    have hlookup := lookup_of_mem names hfield
    have hnew : (found done).lookup name = none := by
      rw [lookup_found, Option.isNone_iff_eq_none.mp hnone]
      rfl
    have hstarts := (hvalue shape).starts hL h
    have hshorter := hstarts.shorter
    have hkeyLength := hkey.shorter
    have hgapLength := hgap.length_le
    have hblankLength := hblank.length_le
    have hread := (hvalue shape).eq hL h hblank hrest.isNumeralEnd (by omega)
    have hdone' : ∀ f ∈ (name, j, L) :: done, (f.1, f.2.1) ∈ fs :=
      List.forall_mem_cons.mpr ⟨hj, hdone⟩
    have hentries : entriesFrom value fields fuel false (found ((name, j, L) :: done)) x
        = .ok (fs, r) := ih hdone' (by omega) (by omega) (missing_cons name j L done ls)
    obtain ⟨k, l, rfl, hstring, hcolon⟩ := hkey
    rw [List.length_cons] at hgapLength
    rw [entriesFrom, nextKey?_eq hgap hstring (by omega)]
    simp only [hlookup, hnew, expectColon_eq_ok_iff.mpr hcolon, hread]
    exact hentries
  | @unknown first rest key t u v w x r hgap hkey hunknown hblank h hrest ih =>
    obtain ⟨fuel, rfl⟩ := exists_fuel_eq hfuel
    have hshorter := h.shorter
    have hkeyLength := hkey.shorter
    have hgapLength := hgap.length_le
    have hblankLength := hblank.length_le
    rw [hls.names_eq] at hunknown
    have hskip := h.skipValue_eq hrest.isNumeralEnd hblank (show v.length < fuel by omega)
    have hentries : entriesFrom value fields fuel false (found done) x = .ok (fs, r) :=
      ih hdone (by omega) (by omega) hmissing
    obtain ⟨k, l, rfl, hstring, hcolon⟩ := hkey
    rw [List.length_cons] at hgapLength
    rw [entriesFrom, nextKey?_eq hgap hstring (by omega)]
    simp only [lookup_eq_none_of_notMem hunknown, expectColon_eq_ok_iff.mpr hcolon, hskip]
    exact hentries

end Entries

/-! ## Shapes -/

section Read

variable {variants : Choice → List (Text × Shape)} {fuel levels : Nat}

theorem read_tuple (title : Shape.Title) (fields : List (Text × Shape)) (t : Text) :
    read variants fuel (levels + 1) (.record title fields) ('[' :: t)
      = (tupleFrom (read variants fuel levels) title fields.length 0 fields t).map
        fun (fs, t) => (.object fs, t) := rfl

variable (ih : ∀ inner, levels = inner + 1 → ∀ shape,
  FindsAll (Spelled variants shape) inner fuel (read variants fuel inner shape))

include ih

theorem Spelled.starts {shape : Shape} {j : Json} {L : Language} (hL : Spelled variants shape j L)
    {t r : Text} (h : L levels t r) : Starts t r := by
  cases hL with
  | number x => exact Language.number.starts h
  | flag b => exact Language.flag.starts h
  | text s => exact Language.string.starts h
  | path s => exact Language.string.starts h
  | vector x y z =>
    cases h with
    | bracket hitems =>
      refine ⟨⟨'[', _, rfl, rfl, by decide⟩, Nat.lt_succ_of_lt (hitems.shorter ?_)⟩
      simp only [List.forall_mem_cons]
      exact ⟨fun _ _ => Language.number.starts, fun _ _ => Language.number.starts,
        fun _ _ => Language.number.starts, List.forall_mem_nil _⟩
  | list hrows =>
    cases h with
    | @bracket inner _ _ hitems =>
      refine ⟨⟨'[', _, rfl, rfl, by decide⟩, Nat.lt_succ_of_lt (hitems.shorter ?_)⟩
      intro L hmem u v hu
      obtain ⟨row, hrow, rfl⟩ := List.mem_map.mp hmem
      exact (ih inner rfl _).starts (hrows row hrow) hu
  | record names hls =>
    rcases h with h | h
    · cases h with
      | @bracket inner _ _ hfields =>
        refine ⟨⟨'\x7b', _, rfl, rfl, by decide⟩, Nat.lt_succ_of_lt (hfields.shorter ?_)⟩
        intro f hf u v hu
        obtain ⟨shape, j, -, -, hL⟩ := hls.exists_of_mem hf
        exact (ih inner rfl shape).starts hL hu
    · cases h with
      | @bracket inner _ _ hitems =>
        refine ⟨⟨'[', _, rfl, rfl, by decide⟩, Nat.lt_succ_of_lt (hitems.shorter ?_)⟩
        intro L hmem u v hu
        obtain ⟨f, hf, rfl⟩ := List.mem_map.mp hmem
        obtain ⟨shape, j, -, -, hL⟩ := hls.exists_of_mem hf
        exact (ih inner rfl shape).starts hL hu
  | choice lookup hL =>
    cases h with
    | @bracket inner _ _ _ _ _ _ hopen hkey hblank h hclose =>
      refine ⟨⟨'\x7b', _, rfl, rfl, by decide⟩, ?_⟩
      have hshorter := ((ih inner rfl _).starts hL h).shorter
      have hkeyLength := hkey.shorter
      have hopenLength := hopen.length_le
      have hblankLength := hblank.length_le
      have hcloseLength := hclose.length_le
      simp only [List.length_cons] at hcloseLength ⊢
      omega

theorem Spelled.read_eq {shape : Shape} {j : Json} {L : Language}
    (hL : Spelled variants shape j L) {t u r : Text} (h : L levels u r) (hblank : Blanks t u)
    (hr : IsNumeralEnd r) (hfuel : t.length < fuel) :
    read variants fuel levels shape t = .ok (j, r) := by
  have hlength := hblank.length_le
  have hread : read variants fuel levels shape t = read variants fuel levels shape u := by
    obtain ⟨bs, hbs, rfl⟩ := hblank
    exact read_append hbs shape u
  rw [hread]
  cases hL with
  | number x =>
    obtain ⟨⟨c, v, rfl, hc, -⟩, -⟩ := Language.number.starts h
    rw [read_number hc, readNumber_eq fuel _ h (blanks_refl _) hr]
    rfl
  | flag b =>
    have hflag := readFlag_eq fuel Shape.flag.expected h (blanks_refl _)
    obtain ⟨⟨c, v, rfl, hc, -⟩, -⟩ := Language.flag.starts h
    rw [read_flag hc, hflag]
    rfl
  | text s =>
    have hstring := readString_eq fuel Shape.text.expected h (blanks_refl _) (by omega)
    obtain ⟨v, rfl, -⟩ := h
    rw [read_text, hstring]
    rfl
  | path s =>
    have hstring := readString_eq fuel Shape.path.expected h (blanks_refl _) (by omega)
    obtain ⟨v, rfl, -⟩ := h
    rw [read_path, hstring]
    rfl
  | vector x y z =>
    cases h with
    | @bracket inner _ _ hitems =>
      have hnumbers : vectorFrom fuel 3 true _ = .ok ([.number x, .number y, .number z], r) :=
        @vectorFrom_eq inner fuel [x, y, z] true _ r hitems
      rw [read_vector, hnumbers]
      rfl
  | @list item rows hrows =>
    cases h with
    | @bracket inner v _ hitems =>
      rw [List.length_cons] at hlength
      have hnone : Items inner ([] : List Json).isEmpty (rows.map Prod.snd) v r := hitems
      rw [read_list, itemsFrom_eq (ih inner rfl item) hrows hnone (by omega) (by omega)]
      rfl
  | @record title fields fs ls names hls =>
    rcases h with h | h
    · cases h with
      | @bracket inner v _ hfields =>
        rw [List.length_cons] at hlength
        have hnone : Fields inner (ls.map Prod.fst) true (missing [] ls) v r := by
          rwa [missing_nil]
        have hentries : entriesFrom (read variants fuel inner) fields fuel true [] v
            = .ok (fs, r) :=
          entriesFrom_eq (ih inner rfl) names hls (List.forall_mem_nil _) hnone (by omega)
            (by omega)
        rw [read_record, hentries]
        rfl
    · cases h with
      | @bracket inner v _ hitems =>
        rw [List.length_cons] at hlength
        have hnone : Items inner (decide (0 = 0)) (ls.map Prod.snd) v r := hitems
        rw [read_tuple, tupleFrom_eq (ih inner rfl) hls hnone (by omega)]
        rfl
  | choice lookup hL =>
    cases h with
    | @bracket inner _ _ _ _ _ _ hopen hkey hvalue h hclose =>
      have hopenLength := hopen.length_le
      have hkeyLength := hkey.shorter
      rw [List.length_cons] at hlength
      have hend := isNumeralEnd_of_blanks hclose (Or.inr (Or.inr rfl))
      rw [read_choice, variantKey_eq hopen hkey lookup (by omega)]
      simp only [(ih inner rfl _).eq hL h hvalue hend (by omega),
        closeObject_eq_ok_iff.mpr hclose]
      rfl

omit ih

theorem findsAll_read (shape : Shape) :
    FindsAll (Spelled variants shape) levels fuel (read variants fuel levels shape) := by
  induction levels generalizing shape with
  | zero =>
    have hzero (inner : Nat) (h : 0 = inner + 1) (shape : Shape) :
        FindsAll (Spelled variants shape) inner fuel (read variants fuel inner shape) :=
      absurd h.symm (Nat.succ_ne_zero inner)
    exact ⟨fun hL => hL.starts hzero, fun hL => hL.read_eq hzero⟩
  | succ levels ih =>
    have hsucc (inner : Nat) (h : levels + 1 = inner + 1) (shape : Shape) :
        FindsAll (Spelled variants shape) inner fuel (read variants fuel inner shape) :=
      Nat.succ.inj h ▸ ih shape
    exact ⟨fun hL => hL.starts hsucc, fun hL => hL.read_eq hsucc⟩

end Read

end SolidScript.Json
