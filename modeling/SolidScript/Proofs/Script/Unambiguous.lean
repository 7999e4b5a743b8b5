import SolidScript.Proofs.Script.Forest

/-!
# Scripts are unambiguous

The script of a model tells its statements. The reader gives back the forest of a model as calls
(`spells_render`), so what is left is that a call stands for one leaf or head only. A call is taken
apart from the left: a code is `Readable` if its end can be seen from what follows it, and rows of a
readable code are readable (`Readable.tuple`).

The main statement is `forest_eq_of_render_eq`.
-/

namespace SolidScript

namespace Script

/-! ## Cutting a text at its first stop -/

/-- What stands before the first character that is no `p`, that character, and the rest. -/
theorem cut_inj {p : Char → Bool} {t u v w : Text} {c d : Char} (ht : t.all p = true)
    (hu : u.all p = true) (hc : p c = false) (hd : p d = false) (h : t ++ c :: v = u ++ d :: w) :
    t = u ∧ c = d ∧ v = w := by
  induction t generalizing u with
  | nil =>
    cases u with
    | nil => exact ⟨rfl, List.cons.inj h⟩
    | cons b u =>
      rw [List.all_cons, Bool.and_eq_true] at hu
      rw [(List.cons.inj h).1, hu.1] at hc
      cases hc
  | cons a t ih =>
    rw [List.all_cons, Bool.and_eq_true] at ht
    cases u with
    | nil =>
      rw [← (List.cons.inj h).1, ht.1] at hd
      cases hd
    | cons b u =>
      rw [List.all_cons, Bool.and_eq_true] at hu
      obtain ⟨hab, htail⟩ := List.cons.inj h
      obtain ⟨htu, hcd, hvw⟩ := ih ht.2 hu.2 htail
      exact ⟨by rw [hab, htu], hcd, hvw⟩

/-! ## Readable codes -/

/-- The text does not go on with a number. -/
def IsStop (t : Text) : Prop := ∃ c rest, t = c :: rest ∧ isNumberChar c = false

theorem isStop_cons {c : Char} (h : isNumberChar c = false) (t : Text) : IsStop (c :: t) :=
  ⟨c, t, rfl, h⟩

/-- An item can be told from the text that begins with its code, and so can the end of the code. The
code of an item is not taken for the end of a row. -/
structure Readable {α : Type} (code : α → Text) : Prop where
  cut : ∀ {a b : α} {u v : Text}, IsStop u → IsStop v → code a ++ u = code b ++ v → a = b ∧ u = v
  starts : ∀ a : α, ∃ c rest, code a = c :: rest ∧ c ≠ ']'

/-- Different numbers have different texts, and a number ends where no number goes on. -/
theorem readable_of_number {α : Type} {code : α → Text} (hinj : Function.Injective code)
    (hall : ∀ a, (code a).all isNumberChar = true) (hne : ∀ a, code a ≠ []) : Readable code where
  cut := by
    rintro a b _ _ ⟨c, v, rfl, hc⟩ ⟨d, w, rfl, hd⟩ h
    obtain ⟨hcode, hcd, hvw⟩ := cut_inj (hall a) (hall b) hc hd h
    exact ⟨hinj hcode, by rw [hcd, hvw]⟩
  starts := by
    intro a
    obtain ⟨c, rest, hcode⟩ := List.exists_cons_of_ne_nil (hne a)
    refine ⟨c, rest, hcode, ?_⟩
    have hc := hall a
    rw [hcode, List.all_cons, Bool.and_eq_true] at hc
    rintro rfl
    exact absurd hc.1 (by decide)

theorem readable_amount : Readable (Subtype.val : Amount → Text) := by
  refine readable_of_number Subtype.val_injective ?_ ?_
  · rintro ⟨_, x, rfl⟩
    exact Style.all_write .script x
  · rintro ⟨_, x, rfl⟩
    exact Style.write_ne_nil .script x

theorem readable_digits : Readable digits :=
  readable_of_number digits_injective all_digits digits_ne_nil

section Rows

variable {α : Type} {code : α → Text}

/-- A row with a comma in front of each item. -/
theorem commas_inj (hcode : Readable code) {as bs : List α} {u v : Text}
    (h : (as.flatMap fun a => ',' :: code a) ++ ']' :: u
      = (bs.flatMap fun b => ',' :: code b) ++ ']' :: v) : as = bs ∧ u = v := by
  have hstop (cs : List α) (w : Text) :
      IsStop ((cs.flatMap fun c => ',' :: code c) ++ ']' :: w) := by
    cases cs with
    | nil => exact isStop_cons rfl w
    | cons c cs => exact isStop_cons rfl _
  induction as generalizing bs with
  | nil =>
    cases bs with
    | nil => exact ⟨rfl, (List.cons.inj h).2⟩
    | cons b bs => exact absurd (List.cons.inj h).1 (by decide)
  | cons a as ih =>
    cases bs with
    | nil => exact absurd (List.cons.inj h).1 (by decide)
    | cons b bs =>
      simp only [List.flatMap_cons, List.cons_append, List.append_assoc] at h
      obtain ⟨hab, hrest⟩ := hcode.cut (hstop as u) (hstop bs v) (List.cons.inj h).2
      obtain ⟨hasbs, huv⟩ := ih hrest
      exact ⟨by rw [hab, hasbs], huv⟩

theorem tuple_cons (a : α) (as : List α) (u : Text) : tuple code (a :: as) ++ u
    = '[' :: code a ++ ((as.flatMap fun b => ',' :: code b) ++ ']' :: u) := by
  rw [tuple, List.map_cons, Text.intercalate_cons, List.flatMap_map]
  simp

/-- Rows of a readable code are readable. -/
theorem Readable.tuple (hcode : Readable code) : Readable (tuple code) where
  cut := by
    intro as bs u v hu hv h
    cases as with
    | nil =>
      cases bs with
      | nil => exact ⟨rfl, List.append_cancel_left h⟩
      | cons b bs =>
        obtain ⟨c, rest, hb, hc⟩ := hcode.starts b
        rw [tuple_cons, hb] at h
        exact absurd (List.cons.inj (List.cons.inj h).2).1.symm hc
    | cons a as =>
      cases bs with
      | nil =>
        obtain ⟨c, rest, ha, hc⟩ := hcode.starts a
        rw [tuple_cons, ha] at h
        exact absurd (List.cons.inj (List.cons.inj h).2).1 hc
      | cons b bs =>
        rw [tuple_cons, tuple_cons] at h
        -- with a comma in front of the first items both rows have one shape
        have hrow : ((a :: as).flatMap fun a => ',' :: code a) ++ ']' :: u
            = ((b :: bs).flatMap fun b => ',' :: code b) ++ ']' :: v := by
          simpa using h
        exact commas_inj hcode hrow
  starts := fun as => ⟨'[', _, rfl, by decide⟩

theorem argument_inj (hcode : Readable code) {name u v : Text} {a b : α}
    (h : argument name (code a) ++ u = argument name (code b) ++ v) : a = b ∧ u = v := by
  simp only [argument, List.append_assoc] at h
  obtain ⟨hab, hrest⟩ := hcode.cut (isStop_cons rfl _) (isStop_cons rfl _)
    (List.append_cancel_left (List.append_cancel_left h))
  exact ⟨hab, (List.cons.inj hrest).2⟩

end Rows

theorem flag_injective : Function.Injective flag := by
  intro b c h
  cases b <;> cases c
  · rfl
  · exact absurd h (by decide)
  · exact absurd h (by decide)
  · rfl

end Script

open Script

/-! ## Calls -/

/-- The word of a call ends at the first bracket. -/
theorem word_inj {t u v w : Text} (ht : t.all (· ≠ '(') = true) (hu : u.all (· ≠ '(') = true)
    (h : t ++ '(' :: (v ++ [')']) = u ++ '(' :: (w ++ [')'])) : t = u ∧ v = w := by
  obtain ⟨htu, -, hrest⟩ := cut_inj ht hu rfl rfl h
  exact ⟨htu, List.append_cancel_right hrest⟩

theorem Leaf.all_word (l : Leaf) : l.word.toList.all (· ≠ '(') = true := by
  cases l <;> simp [word]

theorem Head.all_word (h : Head) : h.word.all (· ≠ '(') = true := by
  cases h with
  | transform keyword params =>
    obtain ⟨_, op, rfl⟩ := keyword
    cases op <;> rfl
  | _ => rfl

/-- A call stands for one leaf only. -/
theorem Leaf.call_injective (s : Settings) : Function.Injective (Leaf.call s) := by
  intro l m h
  obtain ⟨hword, harguments⟩ := word_inj l.all_word m.all_word h
  rw [String.toList_inj] at hword
  cases l with
  | cube size center =>
    cases m with
    | cube size' center' =>
      rw [arguments, arguments, List.append_assoc, List.append_assoc] at harguments
      obtain ⟨hsize, hrest⟩ := readable_amount.tuple.cut (isStop_cons rfl _) (isStop_cons rfl _)
        harguments
      have hcenter : flag center = flag center' := (List.cons.inj hrest).2
      rw [hsize, flag_injective hcenter]
    | _ => simp [word] at hword
  | sphere r =>
    cases m with
    | sphere r' =>
      rw [Subtype.val_injective (List.append_cancel_right (List.append_cancel_right harguments))]
    | _ => simp [word] at hword
  | cylinder height rBottom rTop center =>
    cases m with
    | cylinder height' rBottom' rTop' center' =>
      have hitems := List.append_cancel_left harguments
      -- the resolution stands first, and is the same in both
      obtain ⟨-, hrest⟩ := readable_digits.cut (isStop_cons rfl _) (isStop_cons rfl _) hitems
      obtain ⟨hheight, hrest⟩ := readable_amount.cut (isStop_cons rfl _) (isStop_cons rfl _)
        (List.cons.inj hrest).2
      obtain ⟨hbottom, hrest⟩ := readable_amount.cut (isStop_cons rfl _) (isStop_cons rfl _)
        (List.cons.inj hrest).2
      obtain ⟨htop, hrest⟩ := readable_amount.cut (isStop_cons rfl _) (isStop_cons rfl _)
        (List.cons.inj hrest).2
      rw [hheight, hbottom, htop,
        flag_injective (List.append_cancel_right (List.cons.inj hrest).2)]
    | _ => simp [word] at hword
  | polyhedron points faces =>
    cases m with
    | polyhedron points' faces' =>
      rw [arguments, arguments, List.append_assoc, List.append_assoc] at harguments
      obtain ⟨hpoints, hrest⟩ := argument_inj readable_amount.tuple.tuple harguments
      obtain ⟨hfaces, -⟩ := argument_inj readable_digits.tuple.tuple hrest
      rw [hpoints, hfaces]
    | _ => simp [word] at hword
  | mesh file =>
    cases m with
    | mesh file' =>
      have hquoted := List.append_cancel_right harguments
      have hfile : file = file' :=
        (Quoted.encode_append_quote_inj (u := []) (v := []) (List.cons.inj hquoted).2).1
      rw [hfile]
    | _ => simp [word] at hword

/-- A call stands for one head only. -/
theorem Head.call_injective : Function.Injective Head.call := by
  intro h k hcall
  obtain ⟨hword, harguments⟩ := word_inj h.all_word k.all_word hcall
  cases h with
  | transform keyword params =>
    cases k with
    | transform keyword' params' =>
      have hparams : params = params' := by
        -- a row of numbers needs something behind it that is no number
        have hrow := congrArg (· ++ [')']) harguments
        exact (readable_amount.tuple.cut (isStop_cons rfl _) (isStop_cons rfl _) hrow).1
      rw [Subtype.val_injective hword, hparams]
    | _ => cases harguments
  | union =>
    cases k with
    | union => rfl
    | transform _ _ => cases harguments
    | _ => exact absurd hword (by decide)
  | difference =>
    cases k with
    | difference => rfl
    | transform _ _ => cases harguments
    | _ => exact absurd hword (by decide)
  | intersection =>
    cases k with
    | intersection => rfl
    | transform _ _ => cases harguments
    | _ => exact absurd hword (by decide)

namespace Statement

variable {α β γ δ : Type} {f : α → γ} {g : β → δ}

mutual

/-- Statements with different leaves or heads are told apart as long as these are. -/
theorem map_injective (hf : Function.Injective f) (hg : Function.Injective g) :
    ∀ s t : Statement α β, s.map f g = t.map f g → s = t
  | .leaf body, .leaf body', h => by
    rw [hf (Statement.leaf.inj h)]
  | .leaf _, .block _ _, h => by cases h
  | .block _ _, .leaf _, h => by cases h
  | .block head inside, .block head' inside', h => by
    obtain ⟨hhead, hinside⟩ := Statement.block.inj h
    rw [hg hhead, mapAll_injective hf hg inside inside' hinside]

theorem mapAll_injective (hf : Function.Injective f) (hg : Function.Injective g) :
    ∀ ss ts : List (Statement α β), mapAll f g ss = mapAll f g ts → ss = ts
  | [], [], _ => rfl
  | [], _ :: _, h => by cases h
  | _ :: _, [], h => by cases h
  | s :: ss, t :: ts, h => by
    obtain ⟨hhead, htail⟩ := List.cons.inj h
    rw [map_injective hf hg s t hhead, mapAll_injective hf hg ss ts htail]

end

end Statement

/-! ## Scripts -/

namespace Node

/-- Models with one script have the same statements. -/
theorem forest_eq_of_render_eq (s : Settings) {a b : Node} (ha : a.isLiteralFree = true)
    (hb : b.isLiteralFree = true) (h : a.render s = b.render s) : a.forest = b.forest := by
  have hread : callAll s a.forest = callAll s b.forest := by
    rw [← Option.some_inj, ← read_of_spells (spells_render s a ha),
      ← read_of_spells (spells_render s b hb), h]
  exact Statement.mapAll_injective (Leaf.call_injective s) Head.call_injective _ _ hread

/-- A list in a union leaves no trace, nor does it matter which byte of a path is no text. A quote,
a brace, a backslash and the end of a line stay inside the string. -/
theorem forest_eq_of_broken_paths :
    let broken (b : UInt8) : Node := .mesh ⟨[b, 0x22, 0x29, 0x3B, 0x7D, 0x0A, 0x7B, 0x5C]⟩
    let a : Node := .union [.list [broken 0xFF, .sphere ⟨0⟩], .list []]
    let b : Node := .union [broken 0xFE, .sphere ⟨0⟩]
    a.isLiteralFree = true ∧ b.isLiteralFree = true ∧ a.render {} = b.render {}
      ∧ a.forest = b.forest := by
  intro broken a b
  have hrender : a.render {} = b.render {} := by decide +kernel +revert
  exact ⟨rfl, rfl, hrender, forest_eq_of_render_eq {} rfl rfl hrender⟩

end Node

end SolidScript
