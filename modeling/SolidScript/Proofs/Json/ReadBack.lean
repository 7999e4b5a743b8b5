import SolidScript.Proofs.Json.Fits
import SolidScript.Proofs.Json.Tokens

/-!
# What was written is read back

The text of a value that fits a shape is read back if the value can be loaded, and it is refused if
not (`readAll_print_of_loads`, `readAll_print_of_not_loads`). What comes back is the value, with
each of its numbers read again from its digits. There is one lemma for each kind of shape, and the
induction follows the value: shapes name each other in a circle, so it cannot follow them.
-/

namespace SolidScript.Json

/-! ## The starts of texts -/

theorem exists_bracketed_cons (layout : Layout) (depth : Nat) (left right : Char)
    (xs : List Text) : ∃ t, bracketed layout depth left right xs = left :: t := by
  cases xs with
  | nil => exact ⟨[right], rfl⟩
  | cons x xs => exact ⟨_, rfl⟩

/-- The text of a value starts with a character that is neither blank nor the end of an array. -/
theorem exists_printAt_eq (layout : Layout) (depth : Nat) (j : Json) :
    ∃ c t, j.printAt layout depth = c :: t ∧ isBlank c = false ∧ c ≠ ']' := by
  cases j with
  | null => exact ⟨'n', _, rfl, rfl, by decide⟩
  | bool b =>
    cases b with
    | true => exact ⟨'t', _, rfl, rfl, by decide⟩
    | false => exact ⟨'f', _, rfl, rfl, by decide⟩
  | number x =>
    rw [printAt_number, printNumber]
    split
    next h =>
      -- what is written is read as a number, so it starts as numbers start
      have hread := numberValue_write h isNumeralEnd_nil
      rw [List.append_nil] at hread
      cases htext : Style.document.write x with
      | nil =>
        rw [htext] at hread
        cases hread
      | cons c t =>
        rw [htext] at hread
        have hstart := start_of_numberValue hread
        refine ⟨c, t, rfl, isBlank_of_start hstart, ?_⟩
        rintro rfl
        exact absurd hstart (by decide)
    next => exact ⟨'n', _, rfl, rfl, by decide⟩
  | string t => exact ⟨'"', _, rfl, rfl, by decide⟩
  | array js =>
    obtain ⟨t, ht⟩ := exists_bracketed_cons layout depth '[' ']' (printItems layout (depth + 1) js)
    exact ⟨'[', t, ht, rfl, by decide⟩
  | object fs =>
    obtain ⟨t, ht⟩ := exists_bracketed_cons layout depth '\x7b' '\x7d'
      (printFields layout (depth + 1) fs)
    exact ⟨'\x7b', t, ht, rfl, by decide⟩

section Read

variable {layout : Layout} (hlayout : layout.IsBlank) {depth : Nat} {bs r : Text}
  (hbs : bs.all isBlank = true)

section Items

include hlayout

theorem nextItem?_spread (first : Bool) (j : Json) (xs : List Text) (u : Text) :
    nextItem? first (spread layout depth first (j.printAt layout depth :: xs) ++ u)
      = .ok (some (j.printAt layout depth ++ (spread layout depth false xs ++ u))) := by
  obtain ⟨c, t, htext, hc, hclose⟩ := exists_printAt_eq layout depth j
  have hgap := nextItem?_gap (hlayout.gap depth) first
    (t := t ++ (spread layout depth false xs ++ u)) hc hclose
  rw [spread, htext]
  simpa only [List.append_assoc, List.cons_append] using hgap

theorem nextKey?_spread {fuel : Nat} (first : Bool) (key v : Text) (xs : List Text) (u : Text)
    (hfuel : (spread layout depth first ((quote key ++ layout.colon ++ v) :: xs) ++ u).length
      ≤ fuel) :
    nextKey? fuel first (spread layout depth first ((quote key ++ layout.colon ++ v) :: xs) ++ u)
      = .ok (some (key, layout.colon ++ (v ++ (spread layout depth false xs ++ u)))) := by
  have htext : spread layout depth first ((quote key ++ layout.colon ++ v) :: xs) ++ u
      = (if first then [] else [',']) ++ layout.gap depth
        ++ (quote key ++ (layout.colon ++ (v ++ (spread layout depth false xs ++ u)))) := by
    simp only [spread, List.append_assoc]
  rw [htext] at hfuel ⊢
  rw [List.length_append] at hfuel
  exact nextKey?_gap (hlayout.gap depth) first (by omega)

/-- An entry whose key is new is read by the shape of its field. -/
theorem entriesFrom_entry {value : Shape → Reader Json} {fields : List (Text × Shape)}
    {found : List (Text × Json)} {key v : Text} {shape : Shape}
    (hblank : ∀ as t, as.all isBlank = true → value shape (as ++ t) = value shape t)
    (hlookup : fields.lookup key = some shape) (hnew : found.lookup key = none) (first : Bool)
    (xs : List Text) (u : Text) {fuel : Nat}
    (hfuel : (spread layout depth first ((quote key ++ layout.colon ++ v) :: xs) ++ u).length
      ≤ fuel) :
    entriesFrom value fields (fuel + 1) first found
      (spread layout depth first ((quote key ++ layout.colon ++ v) :: xs) ++ u)
      = match value shape (v ++ (spread layout depth false xs ++ u)) with
        | .error e => .error e
        | .ok (j, t) => entriesFrom value fields fuel false ((key, j) :: found) t := by
  obtain ⟨as, hcolon, has⟩ := hlayout.colon
  have hkey := nextKey?_spread hlayout first key v xs u hfuel
  have hvalue := hblank as (v ++ (spread layout depth false xs ++ u)) has
  rw [entriesFrom, hkey, hcolon]
  cases hread : value shape (v ++ (spread layout depth false xs ++ u)) with
  | error e => simp [hlookup, hnew, expectColon_cons, hvalue, hread]
  | ok result => simp [hlookup, hnew, expectColon_cons, hvalue, hread]

omit hlayout in
theorem length_lt_spread_entry (first : Bool) (key v : Text) (xs : List Text) (u : Text) :
    (v ++ (spread layout depth false xs ++ u)).length
      < (spread layout depth first ((quote key ++ layout.colon ++ v) :: xs) ++ u).length := by
  have hpos : 0 < (quote key).length := by simp [quote]
  simp only [spread, List.length_append]
  omega

omit hlayout in
theorem length_spread_cons (first : Bool) (x : Text) (xs : List Text) (u : Text) :
    (x ++ (spread layout depth false xs ++ u)).length
      ≤ (spread layout depth first (x :: xs) ++ u).length := by
  simp only [spread, List.length_append]
  omega

end Items

include hbs

/-- Whatever follows a value inside brackets does not go on with a numeral. -/
theorem isNumeralEnd_spread (xs : List Text) {c : Char} (hc : c = ']' ∨ c = '\x7d') :
    IsNumeralEnd (spread layout depth false xs ++ (bs ++ c :: r)) := by
  cases xs with
  | nil => exact isNumeralEnd_blanks hbs (Or.inr hc)
  | cons x xs =>
    rintro d ⟨⟩
    exact ⟨rfl, by decide, by decide, by decide⟩

include hlayout

theorem yields_vectorFrom (fuel : Nat) (xs : List Binary64) (first : Bool) :
    Yields (∀ x ∈ xs, x.isFinite = true) ((xs.map Binary64.reread).map Json.number) r
      (vectorFrom fuel xs.length first
        (spread layout depth first (printItems layout depth (xs.map Json.number))
          ++ (bs ++ ']' :: r))) := by
  induction xs generalizing first with
  | nil =>
    unfold vectorFrom
    rw [List.map_nil, List.map_nil, printItems_nil, spread, List.nil_append,
      nextItem?_end hbs first]
    exact yields_of_ok (by rw [closeArray_blanks hbs]; rfl) (List.forall_mem_nil _)
  | cons x xs ih =>
    have hend : IsNumeralEnd (spread layout depth false
        (printItems layout depth (xs.map Json.number)) ++ (bs ++ ']' :: r)) :=
      isNumeralEnd_spread hbs _ (Or.inl rfl)
    have hx := yields_readNumber fuel Shape.number.expected x hend
    have hnext := @nextItem?_spread layout hlayout depth first (.number x)
      (printItems layout depth (xs.map Json.number)) (bs ++ ']' :: r)
    rw [List.map_cons, List.map_cons, List.map_cons, printItems_cons, List.forall_mem_cons,
      List.length_cons]
    unfold vectorFrom
    rw [hnext]
    simp only
    rcases hx.cases with ⟨hfinite, hok⟩ | ⟨hfinite, e, herror⟩
    · rw [printAt_number, hok]
      simp only
      rcases (ih false).cases with ⟨hrest, hok⟩ | ⟨hrest, e, herror⟩
      · rw [hok]
        exact yields_of_ok rfl ⟨hfinite, hrest⟩
      · rw [herror]
        exact yields_of_error rfl fun h => hrest h.2
    · rw [printAt_number, herror]
      exact yields_of_error rfl fun h => hfinite h.1

/-- The items of an array are read one after the other, up to the first that is refused. -/
theorem yields_itemsFrom {item : Reader Json} {p : Json → Prop} {limit : Nat} (js : List Json)
    (hitem : ∀ j ∈ js, ∀ u, IsNumeralEnd u → (j.printAt layout depth ++ u).length < limit →
      Yields (p j) (j.map Binary64.reread) u (item (j.printAt layout depth ++ u)))
    (done : List Json) {fuel : Nat}
    (hlimit : (spread layout depth done.isEmpty (printItems layout depth js)
      ++ (bs ++ ']' :: r)).length < limit)
    (hfuel : (spread layout depth done.isEmpty (printItems layout depth js)
      ++ (bs ++ ']' :: r)).length < fuel) :
    Yields (∀ j ∈ js, p j) (done.reverse ++ js.map (map Binary64.reread)) r
      (itemsFrom item fuel done
        (spread layout depth done.isEmpty (printItems layout depth js) ++ (bs ++ ']' :: r))) := by
  induction js generalizing done fuel with
  | nil =>
    obtain ⟨fuel, rfl⟩ := exists_fuel_eq hfuel
    rw [printItems_nil, spread, List.nil_append, itemsFrom, nextItem?_end hbs, List.map_nil,
      List.append_nil]
    exact yields_of_ok (by simp only [closeArray_blanks hbs]; rfl) (List.forall_mem_nil _)
  | cons j js ih =>
    obtain ⟨fuel, rfl⟩ := exists_fuel_eq hfuel
    rw [printItems_cons] at hlimit hfuel ⊢
    have hlength := @length_spread_cons layout depth done.isEmpty
      (j.printAt layout depth) (printItems layout depth js) (bs ++ ']' :: r)
    -- every item uses up a character at least, so the fuel lasts
    have hpos : 0 < (j.printAt layout depth).length := by
      obtain ⟨c, t, htext, -⟩ := exists_printAt_eq layout depth j
      simp [htext]
    have hend : IsNumeralEnd (spread layout depth false (printItems layout depth js)
        ++ (bs ++ ']' :: r)) := isNumeralEnd_spread hbs _ (Or.inl rfl)
    have hj := hitem j List.mem_cons_self _ hend (by omega)
    rw [itemsFrom, nextItem?_spread hlayout, List.forall_mem_cons]
    simp only
    rcases hj.cases with ⟨hp, hok⟩ | ⟨hp, e, herror⟩
    · rw [hok]
      rw [List.length_append] at hlength
      have hrest := @ih (fun j hj => hitem j (List.mem_cons_of_mem _ hj))
        (j.map Binary64.reread :: done) fuel
        (by rw [List.isEmpty_cons]; omega) (by rw [List.isEmpty_cons]; omega)
      rw [List.reverse_cons, List.append_assoc] at hrest
      exact hrest.congr (by simp [hp])
    · rw [herror]
      exact yields_of_error rfl fun h => hp h.1

/-- The entries of an object are read one after the other too. The ones in `done` have been found
already, and their keys do not come again. -/
theorem yields_entriesFrom {value : Shape → Reader Json} {p : Json → Prop} {limit : Nat}
    (hblank : ∀ shape as t, as.all isBlank = true → value shape (as ++ t) = value shape t)
    (rest : List Row)
    (hvalue : ∀ row ∈ rest, ∀ u, IsNumeralEnd u →
      (row.value.printAt layout depth ++ u).length < limit →
      Yields (p row.value) (row.value.map Binary64.reread) u
        (value row.shape (row.value.printAt layout depth ++ u)))
    (done : List Row) (names : ((done ++ rest).map Row.name).Nodup) {fuel : Nat}
    (hlimit : (spread layout depth done.isEmpty (printFields layout depth (rest.map Row.entry))
      ++ (bs ++ '\x7d' :: r)).length < limit)
    (hfuel : (spread layout depth done.isEmpty (printFields layout depth (rest.map Row.entry))
      ++ (bs ++ '\x7d' :: r)).length < fuel) :
    Yields (∀ row ∈ rest, p row.value)
      ((done ++ rest.map (Row.map Binary64.reread)).map Row.entry) r
      (entriesFrom value ((done ++ rest).map Row.field) fuel done.isEmpty
        (done.map Row.entry).reverse
        (spread layout depth done.isEmpty (printFields layout depth (rest.map Row.entry))
          ++ (bs ++ '\x7d' :: r))) := by
  induction rest generalizing done fuel with
  | nil =>
    obtain ⟨fuel, rfl⟩ := exists_fuel_eq hfuel
    rw [List.append_nil] at names
    have hpick := pickFields_reverse names
    rw [List.map_nil, List.map_nil, List.append_nil, printFields_nil, spread, List.nil_append,
      entriesFrom, nextKey?_end hbs, hpick]
    exact yields_of_ok (by simp only [closeObject_blanks hbs]; rfl) (List.forall_mem_nil _)
  | cons row rest ih =>
    obtain ⟨fuel, rfl⟩ := exists_fuel_eq hfuel
    have hlookup : ((done ++ row :: rest).map Row.field).lookup row.name = some row.shape :=
      lookup_map_of_mem (f := Row.shape) names (List.mem_append_right _ List.mem_cons_self)
    have hend : IsNumeralEnd (spread layout depth false
        (printFields layout depth (rest.map Row.entry)) ++ (bs ++ '\x7d' :: r)) :=
      isNumeralEnd_spread hbs _ (Or.inr rfl)
    have hlength := @length_lt_spread_entry layout depth done.isEmpty row.name
      (row.value.printAt layout depth) (printFields layout depth (rest.map Row.entry))
      (bs ++ '\x7d' :: r)
    rw [printFields_map_cons] at hlimit hfuel ⊢
    rw [entriesFrom_entry hlayout (hblank row.shape) hlookup (lookup_reverse_eq_none names)
      done.isEmpty _ _ (Nat.le_of_lt_succ hfuel)]
    rcases (hvalue row List.mem_cons_self _ hend (by omega)).cases with
      ⟨hp, hok⟩ | ⟨hp, e, herror⟩
    · -- the row is the last of those that are found now
      let found := done ++ [row.map Binary64.reread]
      have hnames : (found ++ rest).map Row.name = (done ++ row :: rest).map Row.name := by
        simp [found]
      have hfields : (found ++ rest).map Row.field = (done ++ row :: rest).map Row.field := by
        simp [found]
      have happend : found ++ rest.map (Row.map Binary64.reread)
          = done ++ (row :: rest).map (Row.map Binary64.reread) := by simp [found]
      have hempty : found.isEmpty = false := by simp [found]
      have hfound : (found.map Row.entry).reverse
          = (row.map Binary64.reread).entry :: (done.map Row.entry).reverse := by simp [found]
      have hrest := @ih (fun row hrow => hvalue row (List.mem_cons_of_mem _ hrow))
        found (by rw [hnames]; exact names) fuel
      rw [hempty, happend, hfields, hfound] at hrest
      rw [List.length_append] at hlength
      rw [hok]
      exact (hrest (by omega) (by omega)).congr (by simp [hp])
    · rw [herror]
      exact yields_of_error rfl fun h => hp (List.forall_mem_cons.mp h).1

end Read

/-! ## Reading by a shape -/

section Shapes

variable {variants : Choice → List (Text × Shape)} {fuel levels : Nat}

theorem read_append {bs : Text} (hbs : bs.all isBlank = true) (shape : Shape) (t : Text) :
    read variants fuel levels shape (bs ++ t) = read variants fuel levels shape t := by
  unfold read
  rw [skipBlanks_append hbs]

variable {c : Char} {t : Text} (hc : isBlank c = false)

include hc

theorem read_number : read variants fuel levels .number (c :: t)
    = (readNumber fuel Shape.number.expected (c :: t)).map fun (x, t) => (.number x, t) := by
  unfold read
  rw [skipBlanks_cons hc]

omit hc

theorem read_true : read variants fuel levels .flag ('t' :: t)
    = (readFlag fuel Shape.flag.expected ('t' :: t)).map fun (b, t) => (.bool b, t) := by
  cases levels <;> rfl

theorem read_false : read variants fuel levels .flag ('f' :: t)
    = (readFlag fuel Shape.flag.expected ('f' :: t)).map fun (b, t) => (.bool b, t) := by
  cases levels <;> rfl

theorem read_text : read variants fuel levels .text ('"' :: t)
    = (readString fuel Shape.text.expected ('"' :: t)).map fun (s, t) => (.string s, t) := by
  cases levels <;> rfl

theorem read_path : read variants fuel levels .path ('"' :: t)
    = (readString fuel Shape.path.expected ('"' :: t)).map fun (s, t) => (.string s, t) := by
  cases levels <;> rfl

theorem read_vector : read variants fuel (levels + 1) .vector ('[' :: t)
    = (vectorFrom fuel 3 true t).map fun (js, t) => (.array js, t) := rfl

theorem read_list (item : Shape) : read variants fuel (levels + 1) (.list item) ('[' :: t)
    = (itemsFrom (read variants fuel levels item) fuel [] t).map fun (js, t) => (.array js, t) :=
  rfl

theorem read_record (title : Shape.Title) (fields : List (Text × Shape)) :
    read variants fuel (levels + 1) (.record title fields) ('\x7b' :: t)
      = (entriesFrom (read variants fuel levels) fields fuel true [] t).map
        fun (fs, t) => (.object fs, t) := rfl

theorem read_choice (of : Choice) : read variants fuel (levels + 1) (.choice of) ('\x7b' :: t)
    = match variantKey fuel (variants of) t with
      | .error e => .error e
      | .ok ((key, content), t) =>
        match read variants fuel levels content t with
        | .error e => .error e
        | .ok (j, t) => (closeObject t).map fun t => (.object [(key, j)], t) := rfl

theorem variantKey_quote {bs : Text} (hbs : bs.all isBlank = true)
    {names : List (Text × Shape)} {key : Text} {content : Shape}
    (lookup : names.lookup key = some content) (hfuel : (quote key ++ ':' :: t).length ≤ fuel) :
    variantKey fuel names (bs ++ (quote key ++ ':' :: t)) = .ok ((key, content), t) := by
  rw [quote_append] at hfuel ⊢
  have hkey : stringBody fuel (key.flatMap escapeChar ++ '"' :: ':' :: t) = .ok (key, ':' :: t) :=
    stringBody_quote hfuel
  rw [variantKey, skipBlanks_append_cons hbs rfl]
  simp only [hkey, lookup, expectColon_cons]
  rfl

end Shapes

/-! ## Values are read back -/

/-- Wherever the text of the value stands, it is read as the value with its numbers read again if
the value can be loaded, and refused if it cannot. -/
def ReadsBack (variants : Choice → List (Text × Shape)) (layout : Layout) (fuel levels : Nat)
    (shape : Shape) (j : Json) : Prop :=
  ∀ depth r, IsNumeralEnd r → (j.printAt layout depth ++ r).length < fuel →
    Yields (j.Loads levels) (j.map Binary64.reread) r
      (read variants fuel levels shape (j.printAt layout depth ++ r))

section ReadsBack

variable {variants : Choice → List (Text × Shape)} {layout : Layout} {fuel levels : Nat}

theorem readsBack_number (x : Binary64) :
    ReadsBack variants layout fuel levels .number (.number x) := by
  intro depth r hr _
  obtain ⟨c, t, htext, hc, -⟩ := exists_printAt_eq layout depth (.number x)
  have hread := yields_readNumber fuel Shape.number.expected x hr
  have hnumber : printNumber x = c :: t := htext
  rw [hnumber, List.cons_append] at hread
  rw [htext, List.cons_append, read_number hc]
  exact (hread.map Json.number).congr (loads_number_iff levels x).symm

theorem readsBack_flag (b : Bool) : ReadsBack variants layout fuel levels .flag (.bool b) := by
  intro depth r _ _
  have hread := readFlag_print fuel Shape.flag.expected b r
  cases b with
  | true =>
    have htrue : "true".toList ++ r = 't' :: ("rue".toList ++ r) := rfl
    show Yields _ _ _ (read variants fuel levels .flag ("true".toList ++ r))
    rw [if_pos rfl, htrue] at hread
    rw [htrue, read_true, hread]
    exact yields_of_ok rfl (loads_flag levels true)
  | false =>
    have hfalse : "false".toList ++ r = 'f' :: ("alse".toList ++ r) := rfl
    show Yields _ _ _ (read variants fuel levels .flag ("false".toList ++ r))
    rw [if_neg Bool.false_ne_true, hfalse] at hread
    rw [hfalse, read_false, hread]
    exact yields_of_ok rfl (loads_flag levels false)

theorem readsBack_text (t : Text) : ReadsBack variants layout fuel levels .text (.string t) := by
  intro depth r _ hfuel
  rw [printAt_string] at hfuel ⊢
  have hread := readString_quote Shape.text.expected (Nat.le_of_lt hfuel)
  rw [quote_append] at hread ⊢
  rw [read_text, hread]
  exact yields_of_ok rfl (loads_string levels t)

theorem readsBack_path (t : Text) : ReadsBack variants layout fuel levels .path (.string t) := by
  intro depth r _ hfuel
  rw [printAt_string] at hfuel ⊢
  have hread := readString_quote Shape.path.expected (Nat.le_of_lt hfuel)
  rw [quote_append] at hread ⊢
  rw [read_path, hread]
  exact yields_of_ok rfl (loads_string levels t)

section Brackets

variable (hlayout : layout.IsBlank)

include hlayout

theorem exists_array_eq (depth : Nat) (js : List Json) :
    ∃ bs, bs.all isBlank = true ∧ ∀ r, (Json.array js).printAt layout depth ++ r
      = '[' :: (spread layout (depth + 1) true (printItems layout (depth + 1) js)
        ++ (bs ++ ']' :: r)) := by
  obtain ⟨bs, hbs, htext⟩ := exists_bracketed_eq hlayout depth '[' ']'
    (printItems layout (depth + 1) js)
  exact ⟨bs, hbs, fun r => by simp [printAt_array, htext]⟩

theorem exists_object_eq (depth : Nat) (fs : List (Text × Json)) :
    ∃ bs, bs.all isBlank = true ∧ ∀ r, (Json.object fs).printAt layout depth ++ r
      = '\x7b' :: (spread layout (depth + 1) true (printFields layout (depth + 1) fs)
        ++ (bs ++ '\x7d' :: r)) := by
  obtain ⟨bs, hbs, htext⟩ := exists_bracketed_eq hlayout depth '\x7b' '\x7d'
    (printFields layout (depth + 1) fs)
  exact ⟨bs, hbs, fun r => by simp [printAt_object, htext]⟩

theorem readsBack_vector (x y z : Binary64) : ReadsBack variants layout fuel levels .vector
    (.array [.number x, .number y, .number z]) := by
  intro depth r _ _
  obtain ⟨bs, hbs, htext⟩ := exists_array_eq hlayout depth [.number x, .number y, .number z]
  rw [htext]
  cases levels with
  | zero => exact yields_of_error rfl (not_loads_array_zero _)
  | succ levels =>
    have hread := @yields_vectorFrom layout hlayout (depth + 1) bs r hbs fuel [x, y, z] true
    rw [read_vector]
    have hmap : (Json.array [.number x, .number y, .number z]).map Binary64.reread
        = .array (([x, y, z].map Binary64.reread).map .number) := by
      rw [map_array]
      rfl
    rw [hmap]
    refine (hread.map Json.array).congr ?_
    simp [loads_array_iff, loads_number_iff]

theorem readsBack_list {item : Shape} {js : List Json}
    (h : ∀ j ∈ js, ∀ lower, ReadsBack variants layout fuel lower item j) :
    ReadsBack variants layout fuel levels (.list item) (.array js) := by
  intro depth r _ hfuel
  obtain ⟨bs, hbs, htext⟩ := exists_array_eq hlayout depth js
  rw [htext] at hfuel ⊢
  cases levels with
  | zero => exact yields_of_error rfl (not_loads_array_zero js)
  | succ levels =>
    have hlength := Nat.lt_of_succ_lt hfuel
    have hread := yields_itemsFrom hlayout hbs js
      (fun j hj u hu hlimit => h j hj levels (depth + 1) u hu hlimit) [] hlength hlength
    rw [read_list, map_array]
    exact (hread.map Json.array).congr (loads_array_iff levels js).symm

theorem readsBack_record (title : Shape.Title) {rows : List Row}
    (names : (rows.map Row.name).Nodup)
    (h : ∀ row ∈ rows, ∀ lower, ReadsBack variants layout fuel lower row.shape row.value) :
    ReadsBack variants layout fuel levels (.record title (rows.map Row.field))
      (.object (rows.map Row.entry)) := by
  intro depth r _ hfuel
  obtain ⟨bs, hbs, htext⟩ := exists_object_eq hlayout depth (rows.map Row.entry)
  rw [htext] at hfuel ⊢
  cases levels with
  | zero => exact yields_of_error rfl (not_loads_object_zero _)
  | succ levels =>
    have hlength := Nat.lt_of_succ_lt hfuel
    have hread := yields_entriesFrom hlayout hbs (fun shape _ t has => read_append has shape t) rows
      (fun row hrow u hu hlimit => h row hrow levels (depth + 1) u hu hlimit) [] names hlength
      hlength
    rw [read_record, map_object_rows]
    refine (hread.map Json.object).congr ?_
    simp [loads_object_iff, Row.entry]

theorem readsBack_choice {of : Choice} {key : Text} {content : Shape} {j : Json}
    (lookup : (variants of).lookup key = some content)
    (h : ∀ lower, ReadsBack variants layout fuel lower content j) :
    ReadsBack variants layout fuel levels (.choice of) (.object [(key, j)]) := by
  intro depth r _ hfuel
  obtain ⟨bs, hbs, htext⟩ := exists_object_eq hlayout depth [(key, j)]
  rw [htext] at hfuel ⊢
  cases levels with
  | zero => exact yields_of_error rfl (not_loads_object_zero _)
  | succ levels =>
    obtain ⟨as, hcolon, has⟩ := hlayout.colon
    -- the only entry stands behind a gap, without a comma
    have hspread : spread layout (depth + 1) true (printFields layout (depth + 1) [(key, j)])
          ++ (bs ++ '\x7d' :: r)
        = layout.gap (depth + 1) ++ (quote key ++ ':' :: (as ++ (j.printAt layout (depth + 1)
          ++ (bs ++ '\x7d' :: r)))) := by
      simp [printFields_cons, printFields_nil, spread, hcolon]
    rw [hspread] at hfuel ⊢
    simp only [List.length_append, List.length_cons] at hfuel
    have hlength : (quote key ++ ':' :: (as ++ (j.printAt layout (depth + 1)
        ++ (bs ++ '\x7d' :: r)))).length ≤ fuel := by
      simp only [List.length_append, List.length_cons]
      omega
    have hkey := variantKey_quote (hlayout.gap (depth + 1)) lookup hlength
    have hcontent := h levels (depth + 1) (bs ++ '\x7d' :: r)
      (isNumeralEnd_blanks hbs (Or.inr (Or.inr rfl)))
      (by simp only [List.length_append, List.length_cons]; omega)
    have hloads : (Json.object [(key, j)]).Loads (levels + 1) ↔ j.Loads levels := by
      simp [loads_object_iff]
    rw [read_choice, hkey]
    simp only [read_append has]
    rcases hcontent.cases with ⟨hj, hok⟩ | ⟨hj, e, herror⟩
    · rw [hok]
      simp only [closeObject_blanks hbs]
      exact yields_of_ok rfl (hloads.mpr hj)
    · rw [herror]
      exact yields_of_error rfl fun hloaded => hj (hloads.mp hloaded)

end Brackets

/-- The text of a value is read back by a shape that it fits. -/
theorem readsBack_of_fits (hlayout : layout.IsBlank) {shape : Shape} {j : Json}
    (h : Fits variants shape j) : ReadsBack variants layout fuel levels shape j := by
  -- the brackets that may be opened become fewer on the way down
  induction h generalizing levels with
  | number x => exact readsBack_number x
  | flag b => exact readsBack_flag b
  | text t => exact readsBack_text t
  | path t => exact readsBack_path t
  | vector x y z => exact readsBack_vector hlayout x y z
  | list _ ih => exact readsBack_list hlayout fun j hj _ => ih j hj
  | record title rows names _ ih =>
    exact readsBack_record hlayout title names fun row hrow _ => ih row hrow
  | choice lookup _ ih => exact readsBack_choice hlayout lookup fun _ => ih

theorem yields_read_print (hlayout : layout.IsBlank) {shape : Shape} {j : Json}
    (h : Fits variants shape j) : Yields (j.Loads levels) (j.map Binary64.reread) []
      (read variants ((j.print layout).length + 1) levels shape (j.print layout)) := by
  have hlength : (j.printAt layout 0 ++ []).length < (j.print layout).length + 1 := by
    rw [List.append_nil]
    exact Nat.lt_succ_self _
  have hread : Yields (j.Loads levels) (j.map Binary64.reread) [] (read variants
      ((j.print layout).length + 1) levels shape (j.printAt layout 0 ++ [])) :=
    readsBack_of_fits hlayout h 0 [] isNumeralEnd_nil hlength
  rw [List.append_nil] at hread
  exact hread

/-- The whole text of a value that fits is read as the value with its numbers read again, if the
value can be loaded. -/
theorem readAll_print_of_loads (hlayout : layout.IsBlank) {shape : Shape} {j : Json}
    (h : Fits variants shape j) (hloads : j.Loads levels) :
    readAll variants levels shape (j.print layout) = .ok (j.map Binary64.reread) := by
  rw [readAll, (yields_read_print hlayout h).ok hloads]
  rfl

/-- It is refused otherwise. -/
theorem readAll_print_of_not_loads (hlayout : layout.IsBlank) {shape : Shape} {j : Json}
    (h : Fits variants shape j) (hloads : ¬j.Loads levels) :
    ∃ e, readAll variants levels shape (j.print layout) = .error e := by
  obtain ⟨e, herror⟩ := (yields_read_print hlayout h).error hloads
  exact ⟨e, by rw [readAll, herror]⟩

end ReadsBack

end SolidScript.Json
