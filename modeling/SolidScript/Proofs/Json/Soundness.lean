import SolidScript.Proofs.Json.ReadBack
import SolidScript.Proofs.Json.Skipped
import SolidScript.Proofs.Json.Spelled

/-!
# What is read is spelled

The guided reader returns a value only if the text starts with a text of the language of the value
(`read_sound`). There is one lemma for each function of the reader. What an object is still to hold
is told by the fields that have been found so far (`entriesFrom_sound`).
-/

namespace SolidScript.Json

/-! ## Gaps and brackets -/

section Gaps

variable {first : Bool} {t u v r : Text}

theorem Blanks.trans (h : Blanks t u) (h' : Blanks u r) : Blanks t r := by
  obtain ⟨bs, hbs, rfl⟩ := h
  obtain ⟨as, has, rfl⟩ := h'
  exact ⟨bs ++ as, by rw [List.all_append, hbs, has]; rfl, (List.append_assoc ..).symm⟩

theorem Gap.blanks (h : Gap first t u) (h' : Blanks u r) : Gap first t r := by
  cases first with
  | true => exact Blanks.trans h h'
  | false =>
    obtain ⟨v, hcomma, hblank⟩ := h
    exact ⟨v, hcomma, hblank.trans h'⟩

theorem closeArray_eq_ok_iff : closeArray t = .ok r ↔ Blanks t (']' :: r) := by
  rw [blanks_cons_iff rfl, closeArray]
  cases skipBlanks t with
  | nil => simp
  | cons c u => by_cases hc : c = ']' <;> simp [hc]

theorem closeObject_eq_ok_iff : closeObject t = .ok r ↔ Blanks t ('\x7d' :: r) := by
  rw [blanks_cons_iff rfl, closeObject]
  cases skipBlanks t with
  | nil => simp
  | cons c u => by_cases hc : c = '\x7d' <;> simp [hc]

theorem nextItem?_sound (h : nextItem? first t = .ok (some u)) : Gap first t u := by
  rw [nextItem?] at h
  split at h
  next => cases h
  next c v hstart =>
    have hblank := blanks_of_skipBlanks_eq hstart
    split at h
    next => cases h
    next =>
      cases first with
      | true =>
        cases h
        exact hblank
      | false =>
        rw [if_neg Bool.false_ne_true] at h
        split at h
        next hcomma =>
          subst hcomma
          split at h
          next => cases h
          next d w hnext =>
            split at h
            next => cases h
            next =>
              cases h
              exact ⟨v, hblank, blanks_of_skipBlanks_eq hnext⟩
        next => cases h

/-- Behind the gap there is a quote, and the key ends with another one. -/
theorem exists_quote_of_key {fuel : Nat} {key : Text} (h : (match t with
      | [] => .error .truncated
      | c :: r => if c = '"' then (stringBody fuel r).map some else .error .malformed)
        = Except.ok (some (key, r))) : ∃ u, t = '"' :: u ∧ StringTail u key r := by
  cases t with
  | nil => cases h
  | cons c u =>
    simp only at h
    split at h
    next hquote =>
      obtain ⟨result, hstring, heq⟩ := map_eq_ok_iff.mp h
      cases heq
      subst hquote
      exact ⟨u, rfl, stringBody_sound hstring⟩
    next => cases h

theorem nextKey?_sound {fuel : Nat} {key : Text} (h : nextKey? fuel first t = .ok (some (key, r))) :
    ∃ u, Gap first t ('"' :: u) ∧ StringTail u key r := by
  rw [nextKey?] at h
  simp only at h
  split at h
  next => cases h
  next c v hstart =>
    have hblank := blanks_of_skipBlanks_eq hstart
    split at h
    next => cases h
    next =>
      cases first with
      | true =>
        rw [if_pos rfl] at h
        obtain ⟨u, hu, hstring⟩ := @exists_quote_of_key (c :: v) _ _ _ h
        exact ⟨u, hu ▸ hblank, hstring⟩
      | false =>
        rw [if_neg Bool.false_ne_true] at h
        split at h
        next hcomma =>
          subst hcomma
          obtain ⟨u, hu, hstring⟩ := exists_quote_of_key h
          exact ⟨u, ⟨v, hblank, blanks_of_skipBlanks_eq hu⟩, hstring⟩
        next => cases h

theorem variantKey_sound {fuel : Nat} {variants : List (Text × Shape)} {key : Text}
    {content : Shape} (h : variantKey fuel variants t = .ok ((key, content), r)) :
    ∃ u, Blanks t u ∧ Key u key r ∧ variants.lookup key = some content := by
  rw [variantKey] at h
  split at h
  next => cases h
  next c v hstart =>
    split at h
    next => cases h
    next hquote =>
      obtain rfl := Decidable.not_not.mp hquote
      split at h
      next => cases h
      next key' w hstring =>
        split at h
        next => cases h
        next content' lookup =>
          obtain ⟨r', hcolon, heq⟩ := map_eq_ok_iff.mp h
          cases heq
          exact ⟨_, blanks_of_skipBlanks_eq hstart,
            ⟨v, w, rfl, stringBody_sound hstring, expectColon_eq_ok_iff.mp hcolon⟩, lookup⟩

end Gaps

/-! ## Values without brackets -/

section Scalars

variable {fuel : Nat} {expected t r : Text} (levels : Nat)

theorem readNumber_sound {x : Binary64} (h : readNumber fuel expected t = .ok (x, r)) :
    ∃ u, Blanks t u ∧ Language.number x levels u r := by
  rw [readNumber] at h
  split at h
  next c u hstart =>
    split at h
    next => exact ⟨_, blanks_of_skipBlanks_eq hstart, numberValue_sound h levels⟩
    next => cases h
  next => cases h

theorem readFlag_sound {b : Bool} (h : readFlag fuel expected t = .ok (b, r)) :
    ∃ u, Blanks t u ∧ Language.flag b levels u r := by
  rw [readFlag] at h
  split at h
  next c u hstart =>
    split at h
    next htrue =>
      obtain ⟨r', hword, heq⟩ := map_eq_ok_iff.mp h
      cases heq
      subst htrue
      refine ⟨_, blanks_of_skipBlanks_eq hstart, ?_⟩
      rw [expectWord_eq_ok_iff.mp hword]
      rfl
    next =>
      split at h
      next hfalse =>
        obtain ⟨r', hword, heq⟩ := map_eq_ok_iff.mp h
        cases heq
        subst hfalse
        refine ⟨_, blanks_of_skipBlanks_eq hstart, ?_⟩
        rw [expectWord_eq_ok_iff.mp hword]
        rfl
      next => cases h
  next => cases h

theorem readString_sound {s : Text} (h : readString fuel expected t = .ok (s, r)) :
    ∃ u, Blanks t u ∧ Language.string s levels u r := by
  rw [readString] at h
  split at h
  next c u hstart =>
    split at h
    next hquote =>
      subst hquote
      exact ⟨_, blanks_of_skipBlanks_eq hstart, u, rfl, stringBody_sound h⟩
    next => cases h
  next => cases h

end Scalars

/-! ## Arrays -/

/-- Whatever the reader returns is spelled at the start of the text. -/
def Finds (R : Json → Language → Prop) (levels : Nat) (value : Reader Json) : Prop :=
  ∀ t j r, value t = .ok (j, r) → ∃ u L, Blanks t u ∧ R j L ∧ L levels u r

open SolidScript.Json.Language (Items Fields)

theorem itemsFrom_sound {R : Json → Language → Prop} {levels : Nat} {item : Reader Json}
    (hitem : Finds R levels item) {fuel : Nat} {done js : List Json} {t r : Text}
    (h : itemsFrom item fuel done t = .ok (js, r)) :
    ∃ rows : List (Json × Language), js = done.reverse ++ rows.map Prod.fst
      ∧ (∀ row ∈ rows, R row.1 row.2) ∧ Items levels done.isEmpty (rows.map Prod.snd) t r := by
  induction fuel generalizing done t with
  | zero => cases h
  | succ fuel ih =>
    rw [itemsFrom] at h
    split at h
    next => cases h
    next hnext =>
      obtain ⟨r', hclose, heq⟩ := map_eq_ok_iff.mp h
      cases heq
      exact ⟨[], (List.append_nil _).symm, List.forall_mem_nil _,
        .close (closeArray_eq_ok_iff.mp hclose)⟩
    next u hnext =>
      split at h
      next => cases h
      next j v hvalue =>
        obtain ⟨w, L, hblank, hL, hw⟩ := hitem u j v hvalue
        obtain ⟨rows, rfl, hrows, hrest⟩ := ih h
        exact ⟨(j, L) :: rows, by simp, List.forall_mem_cons.mpr ⟨hL, hrows⟩,
          .item ((nextItem?_sound hnext).blanks hblank) hw hrest⟩

theorem vectorFrom_sound (levels : Nat) {fuel missing : Nat} {first : Bool} {js : List Json}
    {t r : Text} (h : vectorFrom fuel missing first t = .ok (js, r)) :
    ∃ xs : List Binary64, xs.length = missing ∧ js = xs.map Json.number
      ∧ Items levels first (xs.map Language.number) t r := by
  induction missing generalizing first js t with
  | zero =>
    unfold vectorFrom at h
    split at h
    next => cases h
    next =>
      obtain ⟨r', hclose, heq⟩ := map_eq_ok_iff.mp h
      cases heq
      exact ⟨[], rfl, rfl, .close (closeArray_eq_ok_iff.mp hclose)⟩
    next hmissing => cases hmissing
    next => split at h <;> cases h
    next hmissing => cases hmissing
  | succ missing ih =>
    unfold vectorFrom at h
    split at h
    next => cases h
    next hmissing => cases hmissing
    next => cases h
    next hmissing => cases hmissing
    next u m hnext hmissing =>
      cases hmissing
      split at h
      next => cases h
      next x v hread =>
        split at h
        next => cases h
        next js' r' hrest =>
          cases h
          obtain ⟨w, hblank, hx⟩ := readNumber_sound levels hread
          obtain ⟨xs, rfl, rfl, hitems⟩ := ih hrest
          exact ⟨x :: xs, rfl, rfl, .item ((nextItem?_sound hnext).blanks hblank) hx hitems⟩

theorem tupleFrom_sound {R : Shape → Json → Language → Prop} {levels : Nat}
    {value : Shape → Reader Json} {title : Shape.Title} {total read : Nat}
    {fields : List (Text × Shape)} (hvalue : ∀ f ∈ fields, Finds (R f.2) levels (value f.2))
    {fs : List (Text × Json)} {t r : Text}
    (h : tupleFrom value title total read fields t = .ok (fs, r)) :
    ∃ ls, FieldsSpelled R fields fs ls
      ∧ Items levels (decide (read = 0)) (ls.map Prod.snd) t r := by
  induction fields generalizing read fs t with
  | nil =>
    rw [tupleFrom] at h
    obtain ⟨r', hclose, heq⟩ := map_eq_ok_iff.mp h
    cases heq
    exact ⟨[], .nil, .close (closeArray_eq_ok_iff.mp hclose)⟩
  | cons f fields ih =>
    obtain ⟨name, shape⟩ := f
    obtain ⟨hfirst, hothers⟩ := List.forall_mem_cons.mp hvalue
    rw [tupleFrom] at h
    split at h
    next => cases h
    next => cases h
    next u hnext =>
      split at h
      next => cases h
      next j v hread =>
        split at h
        next => cases h
        next fs' r' hrest =>
          cases h
          obtain ⟨w, L, hblank, hL, hw⟩ := hfirst u j v hread
          obtain ⟨ls, hls, hitems⟩ := ih hothers hrest
          exact ⟨(name, L) :: ls, .cons hL hls,
            .item ((nextItem?_sound hnext).blanks hblank) hw hitems⟩

section Entries

/-- What has been found are fields, each with a value as the field asks for it. -/
structure AreFound (R : Shape → Json → Language → Prop) (fields : List (Text × Shape))
    (done : List (Text × Json × Language)) : Prop where
  spelled : ∀ f ∈ fields, ∀ j L, done.lookup f.1 = some (j, L) → R f.2 j L
  mem : ∀ f ∈ done, f.1 ∈ fields.map Prod.fst

variable {R : Shape → Json → Language → Prop} {fields : List (Text × Shape)}
  {done : List (Text × Json × Language)}

theorem areFound_nil : AreFound R fields [] :=
  ⟨fun _ _ _ _ h => (nomatch h), List.forall_mem_nil _⟩

theorem AreFound.cons (h : AreFound R fields done) (names : (fields.map Prod.fst).Nodup)
    {key : Text} {shape : Shape} {j : Json} {L : Language} (hmem : (key, shape) ∈ fields)
    (hL : R shape j L) : AreFound R fields ((key, j, L) :: done) := by
  refine ⟨fun f hf j' L' hlookup => ?_,
    List.forall_mem_cons.mpr ⟨List.mem_map_of_mem hmem, h.mem⟩⟩
  rw [List.lookup_cons] at hlookup
  by_cases hname : f.1 = key
  · rw [hname, BEq.rfl] at hlookup
    cases hlookup
    rwa [List.inj_on_of_nodup_map names hf hmem hname]
  · rw [beq_eq_false_iff_ne.mpr hname] at hlookup
    exact h.spelled f hf j' L' hlookup

/-- If all fields are found, each has the language that it was found with. -/
theorem pickFields_sound (hdone : ∀ f ∈ fields, ∀ j L, done.lookup f.1 = some (j, L) → R f.2 j L)
    {fs : List (Text × Json)} (h : pickFields (found done) fields = .ok fs) :
    ∃ ls, FieldsSpelled R fields fs ls ∧ ∀ f ∈ ls, ∃ j, done.lookup f.1 = some (j, f.2) := by
  induction fields generalizing fs with
  | nil =>
    cases h
    exact ⟨[], .nil, List.forall_mem_nil _⟩
  | cons f fields ih =>
    obtain ⟨name, shape⟩ := f
    obtain ⟨hfirst, hothers⟩ := List.forall_mem_cons.mp hdone
    rw [pickFields, lookup_found] at h
    cases hlookup : done.lookup name with
    | none =>
      rw [hlookup] at h
      cases h
    | some value =>
      obtain ⟨j, L⟩ := value
      rw [hlookup] at h
      obtain ⟨fs', hfs', heq⟩ := map_eq_ok_iff.mp h
      cases heq
      obtain ⟨ls, hls, hfound⟩ := ih hothers hfs'
      exact ⟨(name, L) :: ls, .cons (hfirst j L hlookup) hls,
        List.forall_mem_cons.mpr ⟨⟨j, hlookup⟩, hfound⟩⟩

/-- Where the object closes, what was found are the fields, and nothing is missing. -/
theorem AreFound.closed (h : AreFound R fields done) {fs : List (Text × Json)}
    (hpicked : pickFields (found done) fields = .ok fs) :
    ∃ ls, FieldsSpelled R fields fs ls
      ∧ (∀ key j L, done.lookup key = some (j, L) → (key, L) ∈ ls) ∧ missing done ls = [] := by
  obtain ⟨ls, hls, hfound⟩ := pickFields_sound h.spelled hpicked
  refine ⟨ls, hls, fun key j L hlookup => ?_, ?_⟩
  · have hkey : key ∈ ls.map Prod.fst := by
      rw [hls.names_eq]
      exact h.mem _ (mem_of_lookup hlookup)
    obtain ⟨f, hf, rfl⟩ := List.mem_map.mp hkey
    obtain ⟨j', hj'⟩ := hfound f hf
    rw [hlookup] at hj'
    cases hj'
    exact hf
  · rw [missing, List.filter_eq_nil_iff]
    intro f hf
    obtain ⟨j, hj⟩ := hfound f hf
    simp [hj]

/-- One step of the reader: the object closes, or an entry comes that is no field, or a field comes
for the first time. -/
theorem entriesFrom_cases {value : Shape → Reader Json} {fuel : Nat} {first : Bool}
    {done fs : List (Text × Json)} {t r : Text}
    (h : entriesFrom value fields (fuel + 1) first done t = .ok (fs, r)) :
    (Blanks t ('\x7d' :: r) ∧ pickFields done fields = .ok fs)
      ∨ (∃ key u v w x, Gap first t u ∧ Key u key v ∧ fields.lookup key = none ∧ Blanks v w
        ∧ IsValue w x ∧ entriesFrom value fields fuel false done x = .ok (fs, r))
      ∨ ∃ key shape j u v x, Gap first t u ∧ Key u key v ∧ fields.lookup key = some shape
        ∧ done.lookup key = none ∧ value shape v = .ok (j, x)
        ∧ entriesFrom value fields fuel false ((key, j) :: done) x = .ok (fs, r) := by
  rw [entriesFrom] at h
  split at h
  next => cases h
  next hnext =>
    split at h
    next => cases h
    next picked hpicked =>
      obtain ⟨r', hclose, heq⟩ := map_eq_ok_iff.mp h
      cases heq
      exact Or.inl ⟨closeObject_eq_ok_iff.mp hclose, hpicked⟩
  next key u hnext =>
    obtain ⟨v, hgap, hkey⟩ := nextKey?_sound hnext
    split at h
    next hunknown =>
      split at h
      next => cases h
      next w hcolon =>
        split at h
        next => cases h
        next x hskip =>
          obtain ⟨y, hblank, hvalue⟩ := skipValue_sound hskip
          exact Or.inr (Or.inl ⟨key, _, w, y, x, hgap,
            ⟨v, u, rfl, hkey, expectColon_eq_ok_iff.mp hcolon⟩, hunknown, hblank, hvalue, h⟩)
    next shape hshape =>
      split at h
      next => cases h
      next hfresh =>
        rw [Bool.not_eq_true, Option.isSome_eq_false_iff, Option.isNone_iff_eq_none] at hfresh
        split at h
        next => cases h
        next w hcolon =>
          split at h
          next => cases h
          next j x hread =>
            exact Or.inr (Or.inr ⟨key, shape, j, _, w, x, hgap,
              ⟨v, u, rfl, hkey, expectColon_eq_ok_iff.mp hcolon⟩, hshape, hfresh, hread, h⟩)

/-- The entries that are read are the fields that are missing, and entries that are no fields. -/
theorem entriesFrom_sound {levels : Nat} {value : Shape → Reader Json}
    (names : (fields.map Prod.fst).Nodup)
    (hvalue : ∀ f ∈ fields, Finds (R f.2) levels (value f.2)) {fuel : Nat} {first : Bool}
    {fs : List (Text × Json)} {t r : Text} (hdone : AreFound R fields done)
    (h : entriesFrom value fields fuel first (found done) t = .ok (fs, r)) :
    ∃ ls, FieldsSpelled R fields fs ls
      ∧ (∀ key j L, done.lookup key = some (j, L) → (key, L) ∈ ls)
      ∧ Fields levels (fields.map Prod.fst) first (missing done ls) t r := by
  induction fuel generalizing done first t with
  | zero => cases h
  | succ fuel ih =>
    rcases entriesFrom_cases h with ⟨hclose, hpicked⟩
      | ⟨key, u, v, w, x, hgap, hkey, hunknown, hblank, hvalue, hnext⟩
      | ⟨key, shape, j, u, v, x, hgap, hkey, hshape, hfresh, hread, hnext⟩
    · obtain ⟨ls, hls, hfound, hmissing⟩ := hdone.closed hpicked
      refine ⟨ls, hls, hfound, ?_⟩
      rw [hmissing]
      exact .close hclose
    · have hnew : key ∉ fields.map Prod.fst := by
        intro hmem
        obtain ⟨f, hf, rfl⟩ := List.mem_map.mp hmem
        rw [lookup_of_mem names hf] at hunknown
        cases hunknown
      obtain ⟨ls, hls, hfound, hrest⟩ := ih hdone hnext
      exact ⟨ls, hls, hfound, .unknown hgap hkey hnew hblank hvalue hrest⟩
    · have hmem := mem_of_lookup hshape
      obtain ⟨w, L, hblank, hL, hw⟩ := hvalue _ hmem v j x hread
      have hcons : entriesFrom value fields fuel false (found ((key, j, L) :: done)) x
          = .ok (fs, r) := hnext
      obtain ⟨ls, hls, hfound, hrest⟩ := ih (hdone.cons names hmem hL) hcons
      have hnone : done.lookup key = none := by
        rwa [lookup_found, Option.map_eq_none_iff] at hfresh
      have hin : (key, L) ∈ missing done ls := by
        refine List.mem_filter.mpr ⟨hfound key j L ?_, by simp [hnone]⟩
        rw [List.lookup_cons, BEq.rfl]
      refine ⟨ls, hls, fun key' j' L' hlookup => hfound key' j' L' ?_, ?_⟩
      · rw [List.lookup_cons, beq_eq_false_iff_ne.mpr, hlookup]
        rintro rfl
        rw [hnone] at hlookup
        cases hlookup
      · rw [missing_cons] at hrest
        exact .field hgap hkey hin hblank hw hrest

end Entries

/-! ## Values with brackets -/

section Brackets

variable {variants : Choice → List (Text × Shape)} {fuel levels : Nat} {t r : Text} {j : Json}

/-- A value starts behind the blanks. -/
theorem exists_start_of_read {shape : Shape} (h : read variants fuel levels shape t = .ok (j, r)) :
    ∃ c u, Blanks t (c :: u) ∧ isBlank c = false
      ∧ read variants fuel levels shape (c :: u) = .ok (j, r) := by
  have hblank := blanks_skipBlanks t
  have hread : read variants fuel levels shape t
      = read variants fuel levels shape (skipBlanks t) := by
    obtain ⟨bs, hbs, ht⟩ := hblank
    exact (congrArg _ ht).trans (read_append hbs shape _)
  cases hstart : skipBlanks t with
  | nil =>
    unfold read at h
    rw [hstart] at h
    cases h
  | cons c u =>
    have hc : isBlank c = false := by
      have hhead := List.head?_dropWhile_not isBlank t
      rw [show t.dropWhile isBlank = c :: u from hstart] at hhead
      exact hhead
    rw [hstart] at hblank hread
    exact ⟨c, u, hblank, hc, hread ▸ h⟩

/-- The parts of a value are read with one bracket less to open than the value itself. -/
theorem exists_of_read_vector (h : read variants fuel levels .vector t = .ok (j, r)) :
    ∃ inner u js, levels = inner + 1 ∧ Blanks t ('[' :: u) ∧ j = .array js
      ∧ vectorFrom fuel 3 true u = .ok (js, r) := by
  obtain ⟨c, u, hblank, hc, h⟩ := exists_start_of_read h
  unfold read at h
  rw [skipBlanks_cons hc] at h
  simp only at h
  split at h
  next => cases h
  next harray =>
    obtain rfl := Decidable.not_not.mp harray
    cases levels with
    | zero => cases h
    | succ inner =>
      obtain ⟨⟨js, r'⟩, hread, heq⟩ := map_eq_ok_iff.mp h
      cases heq
      exact ⟨inner, u, js, rfl, hblank, rfl, hread⟩

theorem exists_of_read_list {item : Shape}
    (h : read variants fuel levels (.list item) t = .ok (j, r)) :
    ∃ inner u js, levels = inner + 1 ∧ Blanks t ('[' :: u) ∧ j = .array js
      ∧ itemsFrom (read variants fuel inner item) fuel [] u = .ok (js, r) := by
  obtain ⟨c, u, hblank, hc, h⟩ := exists_start_of_read h
  unfold read at h
  rw [skipBlanks_cons hc] at h
  simp only at h
  split at h
  next => cases h
  next harray =>
    obtain rfl := Decidable.not_not.mp harray
    cases levels with
    | zero => cases h
    | succ inner =>
      obtain ⟨⟨js, r'⟩, hread, heq⟩ := map_eq_ok_iff.mp h
      cases heq
      exact ⟨inner, u, js, rfl, hblank, rfl, hread⟩

theorem exists_of_read_record {title : Shape.Title} {fields : List (Text × Shape)}
    (h : read variants fuel levels (.record title fields) t = .ok (j, r)) :
    ∃ inner u fs, levels = inner + 1 ∧ j = .object fs
      ∧ ((Blanks t ('[' :: u) ∧ tupleFrom (read variants fuel inner) title fields.length 0 fields u
          = .ok (fs, r))
        ∨ (Blanks t ('\x7b' :: u) ∧ entriesFrom (read variants fuel inner) fields fuel true [] u
          = .ok (fs, r))) := by
  obtain ⟨c, u, hblank, hc, h⟩ := exists_start_of_read h
  unfold read at h
  rw [skipBlanks_cons hc] at h
  simp only at h
  split at h
  next harray =>
    subst harray
    cases levels with
    | zero => cases h
    | succ inner =>
      obtain ⟨⟨fs, r'⟩, hread, heq⟩ := map_eq_ok_iff.mp h
      cases heq
      exact ⟨inner, u, fs, rfl, rfl, Or.inl ⟨hblank, hread⟩⟩
  next =>
    split at h
    next hobject =>
      subst hobject
      cases levels with
      | zero => cases h
      | succ inner =>
        obtain ⟨⟨fs, r'⟩, hread, heq⟩ := map_eq_ok_iff.mp h
        cases heq
        exact ⟨inner, u, fs, rfl, rfl, Or.inr ⟨hblank, hread⟩⟩
    next => cases h

theorem exists_of_read_choice {of : Choice}
    (h : read variants fuel levels (.choice of) t = .ok (j, r)) :
    ∃ inner u key content v j' w, levels = inner + 1 ∧ Blanks t ('\x7b' :: u)
      ∧ j = .object [(key, j')] ∧ variantKey fuel (variants of) u = .ok ((key, content), v)
      ∧ read variants fuel inner content v = .ok (j', w) ∧ closeObject w = .ok r := by
  obtain ⟨c, u, hblank, hc, h⟩ := exists_start_of_read h
  unfold read at h
  rw [skipBlanks_cons hc] at h
  simp only at h
  split at h
  next => cases h
  next =>
    split at h
    next => cases h
    next hobject =>
      obtain rfl := Decidable.not_not.mp hobject
      cases levels with
      | zero => cases h
      | succ inner =>
        simp only at h
        split at h
        next => cases h
        next key content v hkey =>
          split at h
          next => cases h
          next j' w hread =>
            obtain ⟨r', hclose, heq⟩ := map_eq_ok_iff.mp h
            cases heq
            exact ⟨inner, u, key, content, v, j', w, rfl, hblank, rfl,
              hkey, hread, hclose⟩

end Brackets

/-! ## Shapes -/

section Read

variable {variants : Choice → List (Text × Shape)} {fuel levels : Nat}

theorem read_flag {c : Char} (hc : isBlank c = false) (t : Text) :
    read variants fuel levels .flag (c :: t)
      = (readFlag fuel Shape.flag.expected (c :: t)).map fun (b, t) => (.bool b, t) := by
  unfold read
  rw [skipBlanks_cons hc]

/-- Behind a bracket, the parts are read with one bracket less to open. -/
theorem finds_read
    (hvariants : ∀ of, ∀ f ∈ variants of, isDistinct f.2 = true)
    (ih : ∀ inner, levels = inner + 1 → ∀ shape, isDistinct shape = true →
      Finds (Spelled variants shape) inner (read variants fuel inner shape))
    {shape : Shape} (hshape : isDistinct shape = true) :
    Finds (Spelled variants shape) levels (read variants fuel levels shape) := by
  intro t j r h
  cases shape with
  | number =>
    obtain ⟨c, u, hblank, hc, h⟩ := exists_start_of_read h
    rw [read_number hc] at h
    obtain ⟨⟨x, r'⟩, hread, heq⟩ := map_eq_ok_iff.mp h
    cases heq
    obtain ⟨v, hv, hx⟩ := readNumber_sound levels hread
    exact ⟨v, _, hblank.trans hv, .number x, hx⟩
  | flag =>
    obtain ⟨c, u, hblank, hc, h⟩ := exists_start_of_read h
    rw [read_flag hc] at h
    obtain ⟨⟨b, r'⟩, hread, heq⟩ := map_eq_ok_iff.mp h
    cases heq
    obtain ⟨v, hv, hb⟩ := readFlag_sound levels hread
    exact ⟨v, _, hblank.trans hv, .flag b, hb⟩
  | text =>
    obtain ⟨c, u, hblank, hc, h⟩ := exists_start_of_read h
    unfold read at h
    rw [skipBlanks_cons hc] at h
    obtain ⟨⟨s, r'⟩, hread, heq⟩ := map_eq_ok_iff.mp h
    cases heq
    obtain ⟨v, hv, hs⟩ := readString_sound levels hread
    exact ⟨v, _, hblank.trans hv, .text s, hs⟩
  | path =>
    obtain ⟨c, u, hblank, hc, h⟩ := exists_start_of_read h
    unfold read at h
    rw [skipBlanks_cons hc] at h
    obtain ⟨⟨s, r'⟩, hread, heq⟩ := map_eq_ok_iff.mp h
    cases heq
    obtain ⟨v, hv, hs⟩ := readString_sound levels hread
    exact ⟨v, _, hblank.trans hv, .path s, hs⟩
  | vector =>
    obtain ⟨inner, u, js, rfl, hblank, rfl, hread⟩ := exists_of_read_vector h
    obtain ⟨xs, hlength, rfl, hitems⟩ := vectorFrom_sound inner hread
    obtain ⟨x, y, z, rfl⟩ := List.length_eq_three.mp hlength
    exact ⟨_, _, hblank, .vector x y z, .bracket hitems⟩
  | list item =>
    obtain ⟨inner, u, js, rfl, hblank, rfl, hread⟩ := exists_of_read_list h
    obtain ⟨rows, rfl, hrows, hitems⟩ := itemsFrom_sound (ih inner rfl item hshape) hread
    exact ⟨_, _, hblank, .list hrows, .bracket hitems⟩
  | record title fields =>
    rw [isDistinct, Bool.and_eq_true, decide_eq_true_eq] at hshape
    obtain ⟨names, hdistinct⟩ := hshape
    obtain ⟨inner, u, fs, rfl, rfl, hread⟩ := exists_of_read_record h
    have hfields : ∀ f ∈ fields,
        Finds (Spelled variants f.2) inner (read variants fuel inner f.2) :=
      fun f hf => ih inner rfl f.2 (isDistinct_of_mem hdistinct f hf)
    rcases hread with ⟨hblank, hread⟩ | ⟨hblank, hread⟩
    · obtain ⟨ls, hls, hitems⟩ := tupleFrom_sound hfields hread
      exact ⟨_, _, hblank, .record names hls, Or.inr (.bracket hitems)⟩
    · have hread' : entriesFrom (read variants fuel inner) fields fuel true (found []) u
          = .ok (fs, r) := hread
      obtain ⟨ls, hls, -, hentries⟩ := entriesFrom_sound names hfields areFound_nil hread'
      rw [missing_nil, ← hls.names_eq] at hentries
      exact ⟨_, _, hblank, .record names hls, Or.inl (.bracket hentries)⟩
  | choice of =>
    obtain ⟨inner, u, key, content, v, j', w, rfl, hblank, rfl, hkey, hread, hclose⟩ :=
      exists_of_read_choice h
    obtain ⟨x, hx, hname, lookup⟩ := variantKey_sound hkey
    obtain ⟨y, L, hy, hL, hcontent⟩ := ih inner rfl content
      (hvariants of _ (mem_of_lookup lookup)) v j' w hread
    exact ⟨_, _, hblank, .choice lookup hL,
      .bracket hx hname hy hcontent (closeObject_eq_ok_iff.mp hclose)⟩

/-- **What is read is spelled.** -/
theorem read_sound (hvariants : ∀ of, ∀ f ∈ variants of, isDistinct f.2 = true) {shape : Shape}
    (hshape : isDistinct shape = true) :
    Finds (Spelled variants shape) levels (read variants fuel levels shape) := by
  induction levels generalizing shape with
  | zero =>
    exact finds_read hvariants (fun inner h => absurd h.symm (Nat.succ_ne_zero inner)) hshape
  | succ levels ih =>
    refine finds_read hvariants (fun inner hinner shape hshape => ?_) hshape
    cases hinner
    exact ih hshape

end Read

end SolidScript.Json
