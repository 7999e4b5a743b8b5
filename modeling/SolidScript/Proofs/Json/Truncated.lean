import SolidScript.Proofs.Json.CutNumeral
import SolidScript.Proofs.Json.ReadBack

/-!
# Documents cut short

The guided reader finds out that a document is cut short, wherever the cut is. Arrays and objects
end in a bracket that is missing then, so they are found to be truncated; other values run out at
least, and whatever is around them is truncated. As long as nothing is missing, what is there is
read as it was written, and no other fault can come up before the end of the text.

The main statement is `readAll_cut`.
-/

namespace SolidScript.Json

/-! ## Between values -/

section Blanks

variable {bs t p : Text} (hbs : bs.all isBlank = true)

include hbs

theorem skipBlanks_of_isPrefix (h : p <+: bs) : skipBlanks p = [] := by
  have hp : p.all isBlank = true :=
    List.all_eq_true.mpr fun c hc => List.all_eq_true.mp hbs c (h.subset hc)
  have hskip := skipBlanks_append hp (t := [])
  rwa [List.append_nil] at hskip

/-- A cut behind blanks, or in the midst of them, is a cut of what follows them. -/
theorem exists_cut_skipBlanks (ht : t ≠ []) (h : IsCut p (bs ++ t)) :
    ∃ q, IsCut q t ∧ skipBlanks p = skipBlanks q ∧ q.length ≤ p.length := by
  rcases h.append_cases with hcut | ⟨q, rfl, hq⟩
  · exact ⟨[], .nil ht, skipBlanks_of_isPrefix hbs hcut.isPrefix, Nat.zero_le _⟩
  · exact ⟨q, hq, skipBlanks_append hbs, by simp⟩

theorem skipBlanks_end_cut {c : Char} (h : IsCut p (bs ++ [c])) : skipBlanks p = [] := by
  obtain ⟨q, hq, hskip, -⟩ := exists_cut_skipBlanks hbs (List.cons_ne_nil c []) h
  rw [hskip, hq.eq_nil_of_singleton]
  rfl

theorem nextItem?_end_cut (first : Bool) (h : IsCut p (bs ++ [']'])) :
    nextItem? first p = .error .truncated := by
  rw [nextItem?, skipBlanks_end_cut hbs h]

theorem nextKey?_end_cut (fuel : Nat) (first : Bool) (h : IsCut p (bs ++ ['\x7d'])) :
    nextKey? fuel first p = .error .truncated := by
  rw [nextKey?, skipBlanks_end_cut hbs h]

theorem closeObject_cut (h : IsCut p (bs ++ ['\x7d'])) : closeObject p = .error .truncated := by
  rw [closeObject, skipBlanks_end_cut hbs h]

/-- The next item is found if any of it is there. -/
theorem nextItem?_cut (first : Bool) {c : Char} (hc : isBlank c = false) (hclose : c ≠ ']')
    (h : IsCut p ((if first then [] else [',']) ++ bs ++ c :: t)) :
    Reaches p (c :: t) some (nextItem? first p) := by
  cases first with
  | true =>
    obtain ⟨q, hq, hskip, hlength⟩ := exists_cut_skipBlanks hbs (List.cons_ne_nil c t) h
    rw [nextItem?, hskip]
    rcases hq.cons_cases with rfl | ⟨r, rfl, -⟩
    · exact Or.inl rfl
    · refine Or.inr ⟨c :: r, hq, hlength, ?_⟩
      rw [skipBlanks_cons hc]
      simp [hclose]
  | false =>
    rcases IsCut.cons_cases h with rfl | ⟨p, rfl, hp⟩
    · exact Or.inl rfl
    obtain ⟨q, hq, hskip, hlength⟩ := exists_cut_skipBlanks hbs (List.cons_ne_nil c t) hp
    rw [nextItem?, skipBlanks_cons rfl]
    simp only [hskip]
    rcases hq.cons_cases with rfl | ⟨r, rfl, -⟩
    · exact Or.inl rfl
    · refine Or.inr ⟨c :: r, hq, Nat.le_succ_of_le hlength, ?_⟩
      rw [skipBlanks_cons hc]
      simp [hclose]

/-- The next key is read if all of it is there. -/
theorem nextKey?_cut (fuel : Nat) (first : Bool) {key : Text}
    (h : IsCut p ((if first then [] else [',']) ++ bs ++ (quote key ++ t))) :
    Reaches p t (fun q => some (key, q)) (nextKey? fuel first p) := by
  have hne : quote key ++ t ≠ [] := by simp [quote]
  have hquote (u : Text) : skipBlanks ('"' :: u) = '"' :: u := rfl
  cases first with
  | true =>
    obtain ⟨q, hq, hskip, hlength⟩ := exists_cut_skipBlanks hbs hne h
    rw [nextKey?, hskip]
    rcases quote_cut hq fuel with rfl | ⟨r, rfl, hkey | ⟨s, hs, hless, hkey⟩⟩
    · exact Or.inl rfl
    · exact Or.inl (by simp [hquote, hkey, Except.map])
    · exact Or.inr ⟨s, hs, Nat.le_trans hless hlength, by simp [hquote, hkey, Except.map]⟩
  | false =>
    rcases IsCut.cons_cases h with rfl | ⟨p, rfl, hp⟩
    · exact Or.inl rfl
    obtain ⟨q, hq, hskip, hlength⟩ := exists_cut_skipBlanks hbs hne hp
    rw [nextKey?, skipBlanks_cons rfl]
    simp only [hskip]
    rcases quote_cut hq fuel with rfl | ⟨r, rfl, hkey | ⟨s, hs, hless, hkey⟩⟩
    · exact Or.inl rfl
    · exact Or.inl (by simp [hquote, hkey, Except.map])
    · exact Or.inr ⟨s, hs, Nat.le_succ_of_le (Nat.le_trans hless hlength),
        by simp [hquote, hkey, Except.map]⟩

end Blanks

/-- Behind a key a colon is found, and behind the colon what stands there, up to blanks. -/
theorem expectColon_cut {layout : Layout} (hlayout : layout.IsBlank) {t p : Text} (ht : t ≠ [])
    (h : IsCut p (layout.colon ++ t)) :
    expectColon p = .error .truncated
      ∨ ∃ q r, expectColon p = .ok q ∧ skipBlanks q = skipBlanks r ∧ IsCut r t
        ∧ r.length ≤ p.length := by
  obtain ⟨as, hcolon, has⟩ := hlayout.colon
  rw [hcolon] at h
  rcases IsCut.cons_cases h with rfl | ⟨q, rfl, hq⟩
  · exact Or.inl rfl
  · obtain ⟨r, hr, hskip, hlength⟩ := exists_cut_skipBlanks has ht hq
    exact Or.inr ⟨q, r, expectColon_cons q, hskip, hr, Nat.le_succ_of_le hlength⟩

/-! ## Inside brackets -/

section Read

variable {layout : Layout} (hlayout : layout.IsBlank) {depth : Nat} {bs p : Text}
  (hbs : bs.all isBlank = true)

include hbs in
/-- Where what follows a value is cut short, nothing goes on with a numeral. -/
theorem isNumeralEnd_cut (xs : List Text) {c : Char} (hc : c = ']' ∨ c = '\x7d')
    (h : IsCut p (spread layout depth false xs ++ (bs ++ [c]))) : IsNumeralEnd p := fun d hd =>
  isNumeralEnd_spread hbs xs hc d (h.mem_head? hd)

include hlayout in
/-- An item is there as a whole, or it is cut short. -/
theorem nextItem?_spread_cut (first : Bool) (j : Json) (xs : List Text) (u : Text)
    (h : IsCut p (spread layout depth first (j.printAt layout depth :: xs) ++ u)) :
    nextItem? first p = .error .truncated
      ∨ ∃ q, q.length ≤ p.length ∧ nextItem? first p = .ok (some q)
        ∧ (IsCut q (j.printAt layout depth) ∨ ∃ r, q = j.printAt layout depth ++ r
          ∧ IsCut r (spread layout depth false xs ++ u)) := by
  obtain ⟨c, t, htext, hc, hclose⟩ := exists_printAt_eq layout depth j
  have hspread : spread layout depth first (j.printAt layout depth :: xs) ++ u
      = (if first then [] else [',']) ++ layout.gap depth
        ++ c :: (t ++ (spread layout depth false xs ++ u)) := by
    rw [spread, htext]
    simp only [List.append_assoc, List.cons_append]
  rw [hspread] at h
  refine (nextItem?_cut (hlayout.gap depth) first hc hclose h).imp_right ?_
  rintro ⟨q, hq, hlength, hnext⟩
  rw [← List.cons_append, ← htext] at hq
  exact ⟨q, hlength, hnext, hq.append_cases⟩

theorem vectorFrom_nil (fuel missing : Nat) (first : Bool) :
    vectorFrom fuel missing first [] = .error .truncated := by
  unfold vectorFrom
  rfl

theorem itemsFrom_nil (item : Reader Json) (fuel : Nat) (done : List Json) :
    itemsFrom item fuel done [] = .error .truncated := by
  cases fuel <;> rfl

theorem entriesFrom_nil (value : Shape → Reader Json) (fields : List (Text × Shape)) (fuel : Nat)
    (first : Bool) (found : List (Text × Json)) :
    entriesFrom value fields fuel first found [] = .error .truncated := by
  cases fuel <;> rfl

include hlayout hbs

/-- A vector is closed by a bracket, so it is found to be cut short. -/
theorem vectorFrom_cut (fuel : Nat) {xs : List Binary64} (hxs : ∀ x ∈ xs, x.isFinite = true)
    (first : Bool) (h : IsCut p (spread layout depth first
      (printItems layout depth (xs.map Json.number)) ++ (bs ++ [']']))) :
    vectorFrom fuel xs.length first p = .error .truncated := by
  induction xs generalizing first p with
  | nil =>
    have hend := nextItem?_end_cut hbs first h
    unfold vectorFrom
    rw [hend]
  | cons x xs ih =>
    rw [List.forall_mem_cons] at hxs
    have hprint : printNumber x = Style.document.write x := if_pos hxs.1
    unfold vectorFrom
    rw [List.length_cons]
    rcases nextItem?_spread_cut hlayout first (.number x) _ _ h with
      hnext | ⟨q, -, hnext, hq | ⟨r, rfl, hr⟩⟩
    · rw [hnext]
    · rw [printAt_number, hprint] at hq
      rcases runsOut_readNumber hxs.1 hq fuel Shape.number.expected with hx | ⟨y, hx, -⟩
      · simp only [hnext, hx]
      · simp only [hnext, hx, vectorFrom_nil]
    · have hend := isNumeralEnd_cut hbs _ (Or.inl rfl) hr
      have hx := (yields_readNumber fuel Shape.number.expected x hend).ok hxs.1
      rw [printAt_number] at hnext
      simp only [hnext, hx, ih hxs.2 false hr]

/-- So is an array, if its items are read as long as they are there and run out where they are
not. -/
theorem itemsFrom_cut {item : Reader Json} {limit : Nat} {js : List Json}
    (hitem : ∀ j ∈ js, ∀ u, IsNumeralEnd u → (j.printAt layout depth ++ u).length < limit →
      ∃ k, item (j.printAt layout depth ++ u) = .ok (k, u))
    (hcut : ∀ j ∈ js, ∀ q, IsCut q (j.printAt layout depth) → q.length < limit →
      RunsOut (fun _ => True) (item q))
    (fuel : Nat) (done : List Json) (hlimit : p.length < limit)
    (h : IsCut p (spread layout depth done.isEmpty (printItems layout depth js) ++ (bs ++ [']']))) :
    itemsFrom item fuel done p = .error .truncated := by
  induction js generalizing fuel done p with
  | nil =>
    cases fuel with
    | zero => rfl
    | succ fuel => rw [itemsFrom, nextItem?_end_cut hbs _ h]
  | cons j js ih =>
    cases fuel with
    | zero => rfl
    | succ fuel =>
      rw [List.forall_mem_cons] at hitem hcut
      rw [itemsFrom]
      rcases nextItem?_spread_cut hlayout done.isEmpty j _ _ h with
        hnext | ⟨q, hlength, hnext, hq | ⟨r, rfl, hr⟩⟩
      · rw [hnext]
      · rcases hcut.1 q hq (Nat.lt_of_le_of_lt hlength hlimit) with hj | ⟨a, hj, -⟩
        · simp only [hnext, hj]
        · simp only [hnext, hj, itemsFrom_nil]
      · have hend := isNumeralEnd_cut hbs _ (Or.inl rfl) hr
        obtain ⟨k, hk⟩ := hitem.1 r hend (Nat.lt_of_le_of_lt hlength hlimit)
        rw [List.length_append] at hlength
        simp only [hnext, hk]
        exact ih hitem.2 hcut.2 fuel (k :: done) (by omega) hr

/-- And so is an object. The entries in `done` have been found already, and their keys do not come
again. -/
theorem entriesFrom_cut {value : Shape → Reader Json} {limit : Nat}
    (hblank : ∀ shape t u, skipBlanks t = skipBlanks u → value shape t = value shape u)
    {rest : List Row}
    (hvalue : ∀ row ∈ rest, ∀ u, IsNumeralEnd u →
      (row.value.printAt layout depth ++ u).length < limit →
      ∃ k, value row.shape (row.value.printAt layout depth ++ u) = .ok (k, u))
    (hcut : ∀ row ∈ rest, ∀ q, IsCut q (row.value.printAt layout depth) → q.length < limit →
      RunsOut (fun _ => True) (value row.shape q))
    (fuel : Nat) (done : List Row) (names : ((done ++ rest).map Row.name).Nodup)
    (hlimit : p.length < limit)
    (h : IsCut p (spread layout depth done.isEmpty
      (printFields layout depth (rest.map Row.entry)) ++ (bs ++ ['\x7d']))) :
    entriesFrom value ((done ++ rest).map Row.field) fuel done.isEmpty
      (done.map Row.entry).reverse p = .error .truncated := by
  induction rest generalizing fuel done p with
  | nil =>
    cases fuel with
    | zero => rfl
    | succ fuel => rw [entriesFrom, nextKey?_end_cut hbs fuel _ h]
  | cons row rest ih =>
    cases fuel with
    | zero => rfl
    | succ fuel =>
      have hlookup : ((done ++ row :: rest).map Row.field).lookup row.name = some row.shape :=
        lookup_map_of_mem (f := Row.shape) names (List.mem_append_right _ List.mem_cons_self)
      have hnew : (done.map Row.entry).reverse.lookup row.name = none :=
        lookup_reverse_eq_none names
      rw [List.forall_mem_cons] at hvalue hcut
      -- the entry as it is read: a gap, a key, a colon and a value
      have hentry : spread layout depth done.isEmpty
            (printFields layout depth ((row :: rest).map Row.entry)) ++ (bs ++ ['\x7d'])
          = (if done.isEmpty then [] else [',']) ++ layout.gap depth ++ (quote row.name
            ++ (layout.colon ++ (row.value.printAt layout depth ++ (spread layout depth false
              (printFields layout depth (rest.map Row.entry)) ++ (bs ++ ['\x7d']))))) := by
        simp only [printFields_map_cons, spread, List.append_assoc]
      rw [hentry] at h
      rw [entriesFrom]
      rcases nextKey?_cut (hlayout.gap depth) fuel done.isEmpty h with
        hkey | ⟨q, hq, hlength, hkey⟩
      · rw [hkey]
      simp only [hkey, hlookup, hnew, Option.isSome_none, if_neg Bool.false_ne_true]
      obtain ⟨c, t, htext, -⟩ := exists_printAt_eq layout depth row.value
      rcases expectColon_cut hlayout (by simp [htext]) hq with
        hcolon | ⟨r, s, hcolon, hskip, hs, hless⟩
      · rw [hcolon]
      simp only [hcolon, hblank row.shape r s hskip]
      have hsize : s.length < limit := by omega
      rcases hs.append_cases with hs | ⟨u, rfl, hu⟩
      · rcases hcut.1 s hs hsize with hread | ⟨a, hread, -⟩
        · simp only [hread]
        · simp only [hread, entriesFrom_nil]
      · have hend := isNumeralEnd_cut hbs _ (Or.inr rfl) hu
        obtain ⟨k, hread⟩ := hvalue.1 u hend hsize
        rw [List.length_append] at hless
        -- the row is the last of those that are found now, with the value that is read
        let found := done ++ [{ row with value := k }]
        have hnames : (found ++ rest).map Row.name = (done ++ row :: rest).map Row.name := by
          simp [found]
        have hfields : (found ++ rest).map Row.field = (done ++ row :: rest).map Row.field := by
          simp [found, Row.field]
        have hempty : found.isEmpty = false := by simp [found]
        have hfound : (found.map Row.entry).reverse
            = (row.name, k) :: (done.map Row.entry).reverse := by simp [found, Row.entry]
        have hrest := @ih u hvalue.2 hcut.2 fuel found (by rw [hnames]; exact names)
        rw [hfields, hempty, hfound] at hrest
        simp only [hread]
        exact hrest (by omega) hu

end Read

/-! ## Reading by a shape -/

section Shapes

variable {variants : Choice → List (Text × Shape)} {fuel levels : Nat}

/-- A reading starts at the first character that is not blank. -/
theorem read_congr (shape : Shape) {t u : Text} (h : skipBlanks t = skipBlanks u) :
    read variants fuel levels shape t = read variants fuel levels shape u := by
  unfold read
  rw [h]

theorem read_nil (shape : Shape) : read variants fuel levels shape [] = .error .truncated := by
  unfold read
  rfl

/-- The name of a choice is read if all of it is there, with the colon behind it. -/
theorem variantKey_cut {layout : Layout} (hlayout : layout.IsBlank) {bs t p key : Text}
    (hbs : bs.all isBlank = true) (ht : t ≠ []) {names : List (Text × Shape)} {content : Shape}
    (lookup : names.lookup key = some content)
    (h : IsCut p (bs ++ (quote key ++ (layout.colon ++ t)))) :
    variantKey fuel names p = .error .truncated
      ∨ ∃ q r, variantKey fuel names p = .ok ((key, content), q) ∧ skipBlanks q = skipBlanks r
        ∧ IsCut r t ∧ r.length ≤ p.length := by
  have hne : quote key ++ (layout.colon ++ t) ≠ [] := by simp [quote]
  have hquote (u : Text) : skipBlanks ('"' :: u) = '"' :: u := rfl
  obtain ⟨q, hq, hskip, hlength⟩ := exists_cut_skipBlanks hbs hne h
  rw [variantKey, hskip]
  rcases quote_cut hq fuel with rfl | ⟨r, rfl, hkey | ⟨s, hs, hless, hkey⟩⟩
  · exact Or.inl rfl
  · exact Or.inl (by simp [hquote, hkey])
  rcases expectColon_cut hlayout ht hs with hcolon | ⟨u, v, hcolon, hskip, hv, hshort⟩
  · exact Or.inl (by simp [hquote, hkey, lookup, hcolon, Except.map])
  · exact Or.inr ⟨u, v, by simp [hquote, hkey, lookup, hcolon, Except.map], hskip, hv, by omega⟩

end Shapes

/-! ## Values cut short -/

/-- Wherever the text of the value is cut, the reading runs out. -/
def RunsShort (variants : Choice → List (Text × Shape)) (layout : Layout) (fuel levels : Nat)
    (shape : Shape) (j : Json) : Prop :=
  ∀ depth p, IsCut p (j.printAt layout depth) → p.length < fuel →
    RunsOut (fun _ => True) (read variants fuel levels shape p)

section RunsShort

variable {variants : Choice → List (Text × Shape)} {layout : Layout} {fuel levels : Nat}

theorem runsShort_number {x : Binary64} (hx : x.isFinite = true) :
    RunsShort variants layout fuel levels .number (.number x) := by
  intro depth p h _
  obtain ⟨c, t, htext, hc, -⟩ := exists_printAt_eq layout depth (.number x)
  have hprint : (Json.number x).printAt layout depth = Style.document.write x := if_pos hx
  have hread := runsOut_readNumber hx (hprint ▸ h) fuel Shape.number.expected
  rw [htext] at h
  rcases h.cons_cases with rfl | ⟨q, rfl, -⟩
  · exact Or.inl (read_nil _)
  · rw [read_number hc]
    exact hread.map _ fun _ h => h

theorem runsShort_flag (b : Bool) : RunsShort variants layout fuel levels .flag (.bool b) := by
  intro depth p h _
  have hread := readFlag_cut fuel Shape.flag.expected h
  refine Or.inl ?_
  cases b with
  | true =>
    have htrue : IsCut p ('t' :: "rue".toList) := h
    rcases htrue.cons_cases with rfl | ⟨q, rfl, -⟩
    · exact read_nil _
    · rw [read_true, hread]
      rfl
  | false =>
    have hfalse : IsCut p ('f' :: "alse".toList) := h
    rcases hfalse.cons_cases with rfl | ⟨q, rfl, -⟩
    · exact read_nil _
    · rw [read_false, hread]
      rfl

theorem runsShort_text (t : Text) : RunsShort variants layout fuel levels .text (.string t) := by
  intro depth p h _
  refine Or.inl ?_
  have hread := readString_cut fuel Shape.text.expected h
  rcases IsCut.cons_cases h with rfl | ⟨q, rfl, -⟩
  · exact read_nil _
  · rw [read_text, hread]
    rfl

theorem runsShort_path (t : Text) : RunsShort variants layout fuel levels .path (.string t) := by
  intro depth p h _
  refine Or.inl ?_
  have hread := readString_cut fuel Shape.path.expected h
  rcases IsCut.cons_cases h with rfl | ⟨q, rfl, -⟩
  · exact read_nil _
  · rw [read_path, hread]
    rfl

section Brackets

variable (hlayout : layout.IsBlank)

include hlayout

/-- An array that is cut short is cut off before its closing bracket. -/
theorem exists_array_cut {depth : Nat} {js : List Json} {p : Text}
    (h : IsCut p ((Json.array js).printAt layout depth)) :
    p = [] ∨ ∃ q bs, p = '[' :: q ∧ bs.all isBlank = true
      ∧ IsCut q (spread layout (depth + 1) true (printItems layout (depth + 1) js)
        ++ (bs ++ [']'])) := by
  obtain ⟨bs, hbs, htext⟩ := exists_bracketed_eq hlayout depth '[' ']'
    (printItems layout (depth + 1) js)
  rw [printAt_array, htext] at h
  exact h.cons_cases.imp_right fun ⟨q, hp, hq⟩ => ⟨q, bs, hp, hbs, hq⟩

theorem exists_object_cut {depth : Nat} {fs : List (Text × Json)} {p : Text}
    (h : IsCut p ((Json.object fs).printAt layout depth)) :
    p = [] ∨ ∃ q bs, p = '\x7b' :: q ∧ bs.all isBlank = true
      ∧ IsCut q (spread layout (depth + 1) true (printFields layout (depth + 1) fs)
        ++ (bs ++ ['\x7d'])) := by
  obtain ⟨bs, hbs, htext⟩ := exists_bracketed_eq hlayout depth '\x7b' '\x7d'
    (printFields layout (depth + 1) fs)
  rw [printAt_object, htext] at h
  exact h.cons_cases.imp_right fun ⟨q, hp, hq⟩ => ⟨q, bs, hp, hbs, hq⟩

theorem runsShort_vector {x y z : Binary64}
    (hloads : (Json.array [.number x, .number y, .number z]).Loads levels) :
    RunsShort variants layout fuel levels .vector (.array [.number x, .number y, .number z]) := by
  intro depth p h _
  refine Or.inl ?_
  rcases exists_array_cut hlayout h with rfl | ⟨q, bs, rfl, hbs, hq⟩
  · exact read_nil _
  cases levels with
  | zero => exact absurd hloads (not_loads_array_zero _)
  | succ levels =>
    have hfinite : ∀ a ∈ [x, y, z], a.isFinite = true := by
      simpa [loads_array_iff, loads_number_iff] using hloads
    have hread := vectorFrom_cut hlayout hbs fuel hfinite true hq
    rw [read_vector]
    exact congrArg _ hread

theorem runsShort_list {item : Shape} {js : List Json} (hloads : (Json.array js).Loads levels)
    (hback : ∀ j ∈ js, ∀ lower, ReadsBack variants layout fuel lower item j)
    (hshort : ∀ j ∈ js, ∀ lower, j.Loads lower → RunsShort variants layout fuel lower item j) :
    RunsShort variants layout fuel levels (.list item) (.array js) := by
  intro depth p h hfuel
  refine Or.inl ?_
  rcases exists_array_cut hlayout h with rfl | ⟨q, bs, rfl, hbs, hq⟩
  · exact read_nil _
  cases levels with
  | zero => exact absurd hloads (not_loads_array_zero _)
  | succ levels =>
    rw [loads_array_iff] at hloads
    have hread : itemsFrom (read variants fuel levels item) fuel [] q = .error .truncated :=
      itemsFrom_cut hlayout hbs
        (fun j hj u hu hlimit => ⟨_, (hback j hj levels (depth + 1) u hu hlimit).ok (hloads j hj)⟩)
        (fun j hj q hq hlimit => hshort j hj levels (hloads j hj) (depth + 1) q hq hlimit)
        fuel [] (Nat.lt_of_succ_lt hfuel) hq
    rw [read_list]
    exact congrArg _ hread

theorem runsShort_record (title : Shape.Title) {rows : List Row}
    (names : (rows.map Row.name).Nodup)
    (hloads : (Json.object (rows.map Row.entry)).Loads levels)
    (hback : ∀ row ∈ rows, ∀ lower, ReadsBack variants layout fuel lower row.shape row.value)
    (hshort : ∀ row ∈ rows, ∀ lower, row.value.Loads lower →
      RunsShort variants layout fuel lower row.shape row.value) :
    RunsShort variants layout fuel levels (.record title (rows.map Row.field))
      (.object (rows.map Row.entry)) := by
  intro depth p h hfuel
  refine Or.inl ?_
  rcases exists_object_cut hlayout h with rfl | ⟨q, bs, rfl, hbs, hq⟩
  · exact read_nil _
  cases levels with
  | zero => exact absurd hloads (not_loads_object_zero _)
  | succ levels =>
    have hrows : ∀ row ∈ rows, row.value.Loads levels := by
      simpa [loads_object_iff, Row.entry] using hloads
    have hread : entriesFrom (read variants fuel levels) (rows.map Row.field) fuel true [] q
        = .error .truncated := entriesFrom_cut hlayout hbs
      (fun shape t u => read_congr shape)
      (fun row hrow u hu hlimit => ⟨_, (hback row hrow levels (depth + 1) u hu hlimit).ok
        (hrows row hrow)⟩)
      (fun row hrow q hq hlimit => hshort row hrow levels (hrows row hrow) (depth + 1) q hq hlimit)
      fuel [] names (Nat.lt_of_succ_lt hfuel) hq
    rw [read_record]
    exact congrArg _ hread

/-- A choice is an object, so it is found to be cut short. -/
theorem read_choice_cut {of : Choice} {key : Text} {content : Shape} {j : Json}
    (lookup : (variants of).lookup key = some content)
    (hloads : (Json.object [(key, j)]).Loads levels)
    (hback : ∀ lower, ReadsBack variants layout fuel lower content j)
    (hshort : ∀ lower, j.Loads lower → RunsShort variants layout fuel lower content j)
    {depth : Nat} {p : Text} (h : IsCut p ((Json.object [(key, j)]).printAt layout depth))
    (hfuel : p.length < fuel) : read variants fuel levels (.choice of) p = .error .truncated := by
  rcases exists_object_cut hlayout h with rfl | ⟨q, bs, rfl, hbs, hq⟩
  · exact read_nil _
  cases levels with
  | zero => exact absurd hloads (not_loads_object_zero _)
  | succ levels =>
    have hj : j.Loads levels := by simpa [loads_object_iff] using hloads
    have hsize := Nat.lt_of_succ_lt hfuel
    -- the only entry stands behind a gap, without a comma
    have hspread : spread layout (depth + 1) true (printFields layout (depth + 1) [(key, j)])
          ++ (bs ++ ['\x7d'])
        = layout.gap (depth + 1) ++ (quote key ++ (layout.colon
          ++ (j.printAt layout (depth + 1) ++ (bs ++ ['\x7d'])))) := by
      simp [printFields_cons, printFields_nil, spread]
    rw [hspread] at hq
    rw [read_choice]
    rcases variantKey_cut hlayout (hlayout.gap (depth + 1)) (by simp) lookup hq with
      hkey | ⟨r, s, hkey, hskip, hs, hless⟩
    · rw [hkey]
    simp only [hkey, read_congr content hskip]
    rcases hs.append_cases with hs | ⟨u, rfl, hu⟩
    · rcases hshort levels hj (depth + 1) s hs (by omega) with hread | ⟨a, hread, -⟩
      · simp only [hread]
      · simp only [hread]
        rfl
    · have hend : IsNumeralEnd u := fun d hd =>
        isNumeralEnd_blanks hbs (Or.inr (Or.inr rfl)) d (hu.mem_head? hd)
      have hread := (hback levels (depth + 1) u hend (by omega)).ok hj
      simp only [hread, closeObject_cut hbs hu]
      rfl

end Brackets

/-- Whatever value fits a shape and can be loaded, its text runs out where it is cut. -/
theorem runsShort_of_fits (hlayout : layout.IsBlank) {shape : Shape} {j : Json}
    (h : Fits variants shape j) (hloads : j.Loads levels) :
    RunsShort variants layout fuel levels shape j := by
  -- the brackets that may be opened become fewer on the way down
  induction h generalizing levels with
  | number x => exact runsShort_number ((loads_number_iff levels x).mp hloads)
  | flag b => exact runsShort_flag b
  | text t => exact runsShort_text t
  | path t => exact runsShort_path t
  | vector x y z => exact runsShort_vector hlayout hloads
  | list h ih =>
    exact runsShort_list hlayout hloads (fun j hj _ => readsBack_of_fits hlayout (h j hj))
      fun j hj _ => ih j hj
  | record title rows names h ih =>
    exact runsShort_record hlayout title names hloads
      (fun row hrow _ => readsBack_of_fits hlayout (h row hrow)) fun row hrow _ => ih row hrow
  | choice lookup h ih =>
    exact fun depth p hp hfuel => Or.inl (read_choice_cut hlayout lookup hloads
      (fun _ => readsBack_of_fits hlayout h) (fun _ => ih) hp hfuel)

/-- **The text of a choice that is cut short is found to be truncated**, wherever it is cut. -/
theorem readAll_cut (hlayout : layout.IsBlank) {of : Choice} {j : Json}
    (h : Fits variants (.choice of) j) (hloads : j.Loads levels) {p : Text}
    (hp : IsCut p (j.print layout)) :
    readAll variants levels (.choice of) p = .error .truncated := by
  cases h with
  | choice lookup h =>
    have hread := read_choice_cut hlayout lookup hloads (fun _ => readsBack_of_fits hlayout h)
      (fun _ => runsShort_of_fits hlayout h) hp (Nat.lt_succ_self p.length)
    rw [readAll, hread]

end RunsShort

end SolidScript.Json
