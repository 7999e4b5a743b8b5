import Mathlib.Data.List.Forall2
import SolidScript.Proofs.Script.Quoted
import SolidScript.Script

/-!
# Reading scripts

`Script.read` is the reader of a script: a machine that takes one character after the other and
keeps the blocks that are open around it. It knows the grammar of statements and nothing of what
they mean: a statement ends with a semicolon, or it is a head with a block of statements behind it.
Blanks count for nothing outside quotes.

`Spells t ss` says that a text is read as the statements `ss` wherever it stands between two others.
Moving a text to the right does not change what it spells (`Spells.blockPart`), since no string goes
over the end of a line; so what a block spells is put together from what its parts spell
(`Spells.block`).
-/

namespace SolidScript

/-- A statement of a script. What leaves and the heads of blocks are is left open. -/
inductive Statement (α β : Type) where
  | leaf (body : α)
  | block (head : β) (inside : List (Statement α β))

namespace Script

/-- Where in a script a character stands. -/
inductive Place where
  | code
  /-- Between quotes. -/
  | string
  /-- Between quotes, behind a backslash. -/
  | escape
deriving DecidableEq

/-- What has been read of a script. -/
structure Reader where
  place : Place
  /-- The statement that is being read, without its blanks and in reverse. -/
  word : Text
  /-- The statements before it in the same block, in reverse. -/
  before : List (Statement Text Text)
  /-- The blocks that are open, the innermost first: the head of each and the statements before
  it. -/
  around : List (Text × List (Statement Text Text))

def isBlank (c : Char) : Bool := c = ' ' || c = '\t' || c = '\n' || c = '\r'

namespace Reader

/-- One more character. A semicolon with nothing before it is an empty statement. A string ends on
the line on which it starts. -/
def step (s : Reader) (c : Char) : Option Reader :=
  match s.place with
  | .code =>
    if isBlank c then some s
    else if c = '"' then some { s with place := .string, word := c :: s.word }
    else if c = ';' then
      if s.word = [] then some s
      else some { s with word := [], before := .leaf s.word.reverse :: s.before }
    else if c = '\x7b' then
      some { s with word := [], before := [], around := (s.word.reverse, s.before) :: s.around }
    else if c = '\x7d' then
      match s.word, s.around with
      | [], (head, before) :: around =>
        some { s with before := .block head s.before.reverse :: before, around }
      | _, _ => none
    else some { s with word := c :: s.word }
  | .string =>
    if c = '\n' then none
    else if c = '"' then some { s with place := .code, word := c :: s.word }
    else if c = '\\' then some { s with place := .escape, word := c :: s.word }
    else some { s with word := c :: s.word }
  | .escape =>
    if c = '\n' then none else some { s with place := .string, word := c :: s.word }

def run (s : Reader) (t : Text) : Option Reader := t.foldlM step s

end Reader

open Reader

/-- The statements of a script, if it is one. -/
def read (t : Text) : Option (List (Statement Text Text)) :=
  match run ⟨.code, [], [], []⟩ t with
  | some ⟨.code, [], ss, []⟩ => some ss.reverse
  | _ => none

theorem run_nil (s : Reader) : run s [] = some s := rfl

theorem run_cons (s : Reader) (c : Char) (t : Text) : run s (c :: t) = (s.step c).bind (run · t) :=
  List.foldlM_cons

theorem run_append (s : Reader) (t u : Text) : run s (t ++ u) = (run s t).bind (run · u) :=
  List.foldlM_append

/-! ## Collected code -/

/-- Outside quotes, the text is collected as `w`. -/
def Collects (t w : Text) : Prop :=
  ∀ word before around,
    run ⟨.code, word, before, around⟩ t = some ⟨.code, w.reverse ++ word, before, around⟩

theorem Collects.nil : Collects [] [] := fun _ _ _ => rfl

theorem Collects.append {t u w v : Text} (ht : Collects t w) (hu : Collects u v) :
    Collects (t ++ u) (w ++ v) := by
  intro word before around
  rw [run_append, ht, Option.bind_some, hu]
  simp

/-- Characters that stand for themselves outside quotes. -/
def isInk (c : Char) : Bool :=
  !isBlank c && c ≠ '"' && c ≠ ';' && c ≠ '\x7b' && c ≠ '\x7d'

theorem collects_ink {t : Text} (h : t.all isInk = true) : Collects t t := by
  intro word before around
  induction t generalizing word with
  | nil => rfl
  | cons c t ih =>
    rw [List.all_cons, Bool.and_eq_true] at h
    have hc := h.1
    simp only [isInk, Bool.and_eq_true, Bool.not_eq_true', decide_eq_true_eq] at hc
    have hstep : step ⟨.code, word, before, around⟩ c
        = some ⟨.code, c :: word, before, around⟩ := by
      simp [step, hc]
    rw [run_cons, hstep, Option.bind_some, ih h.2]
    simp

theorem collects_blanks {t : Text} (h : t.all isBlank = true) : Collects t [] := by
  intro word before around
  induction t with
  | nil => rfl
  | cons c t ih =>
    rw [List.all_cons, Bool.and_eq_true] at h
    have hstep : step ⟨.code, word, before, around⟩ c
        = some ⟨.code, word, before, around⟩ := by
      simp [step, h.1]
    rw [run_cons, hstep, Option.bind_some, ih h.2]

/-- Only the ink of code is collected. -/
theorem collects_code {t w : Text} (ht : t.all (fun c => isInk c || isBlank c) = true)
    (hw : t.filter isInk = w) : Collects t w := by
  subst hw
  induction t with
  | nil => exact Collects.nil
  | cons c t ih =>
    rw [List.all_cons, Bool.and_eq_true] at ht
    rw [List.filter_cons]
    split
    next hc => exact (collects_ink (t := [c]) (by simp [hc])).append (ih ht.2)
    next hc =>
      have hblank : isBlank c = true := by simpa [hc] using ht.1
      exact (collects_blanks (t := [c]) (by simp [hblank])).append (ih ht.2)

/-- What stands between quotes is collected as it is. -/
theorem collects_quoted (t : Text) :
    Collects ('"' :: Quoted.encode t ++ ['"']) ('"' :: Quoted.encode t ++ ['"']) := by
  -- an escaped character leaves the reader inside the string
  have hinside (t word : Text) (before : List (Statement Text Text))
      (around : List (Text × List (Statement Text Text))) :
      run ⟨.string, word, before, around⟩ (Quoted.encode t)
        = some ⟨.string, (Quoted.encode t).reverse ++ word, before, around⟩ := by
    induction t generalizing word with
    | nil => rfl
    | cons c t ih =>
      have hchar : run ⟨.string, word, before, around⟩ (Quoted.encodeChar c)
          = some ⟨.string, (Quoted.encodeChar c).reverse ++ word, before, around⟩ := by
        rcases Quoted.encodeChar_cases c with ⟨d, henc, -, hd⟩ | ⟨henc, hquote, hback, hline⟩
        · simp [henc, run_cons, run_nil, step, hd]
        · simp [henc, run_cons, run_nil, step, hquote, hback, hline]
      rw [Quoted.encode_cons, run_append, hchar, Option.bind_some, ih]
      simp
  intro word before around
  have hopen : step ⟨.code, word, before, around⟩ '"'
      = some ⟨.string, '"' :: word, before, around⟩ := rfl
  have hclose (word : Text) : step ⟨.string, word, before, around⟩ '"'
      = some ⟨.code, '"' :: word, before, around⟩ := rfl
  rw [List.cons_append, run_cons, hopen, Option.bind_some, run_append, hinside, Option.bind_some,
    run_cons, hclose]
  simp [run_nil]

/-! ## Lines -/

/-- No string goes over the end of a line. -/
theorem step_lineFeed (s : Reader) : s.step '\n' = if s.place = .code then some s else none := by
  obtain ⟨place, w, ss, around⟩ := s
  cases place <;> rfl

theorem run_indentation {s : Reader} (h : s.place = .code) (depth : Nat) :
    run s (Text.indentation depth) = some s := by
  have hblank : s.step ' ' = some s := by
    obtain ⟨place, w, ss, around⟩ := s
    cases h
    rfl
  rw [Text.indentation]
  induction 4 * depth with
  | zero => rfl
  | succ n ih => rw [List.replicate_succ, run_cons, hblank, Option.bind_some, ih]

theorem run_indentLine {s : Reader} (h : s.place = .code) (depth : Nat) (l : Text) :
    run s (Text.indentLine depth l) = run s l := by
  rw [Text.indentLine]
  split
  next hl => rw [List.isEmpty_iff.mp hl]
  next => rw [run_append, run_indentation h, Option.bind_some]

/-- Lines are read alike wherever they start. -/
theorem run_indentLines {s : Reader} (h : s.place = .code) (depth : Nat) (ls : List Text) :
    run s (ls.flatMap fun l => Text.indentLine depth l ++ ['\n'])
      = run s (ls.flatMap fun l => l ++ ['\n']) := by
  induction ls generalizing s with
  | nil => rfl
  | cons l ls ih =>
    simp only [List.flatMap_cons, run_append, run_indentLine h]
    cases hl : run s l with
    | none => rfl
    | some s' =>
      simp only [Option.bind_some, run_cons, step_lineFeed]
      -- a line that ends inside a string is refused, indented or not
      by_cases hs' : s'.place = .code
      · simp only [if_pos hs', Option.bind_some, run_nil]
        exact ih hs'
      · simp only [if_neg hs', Option.bind_none]

theorem flatMap_lines {ls : List Text} (h : ls ≠ []) :
    (ls.flatMap fun l => l ++ ['\n']) = Text.join ls ++ ['\n'] := by
  induction ls with
  | nil => exact absurd rfl h
  | cons l ls ih =>
    cases ls with
    | nil => simp [Text.join]
    | cons m ms =>
      rw [List.flatMap_cons, ih (by simp)]
      simp [Text.join, List.intercalate]

/-- A part of a block is read as what it was before it was moved. -/
theorem run_blockPart {s : Reader} (h : s.place = .code) (t : Text) :
    run s (blockPart t) = run s (t ++ ['\n']) := by
  rw [blockPart]
  split
  next ht =>
    rw [List.isEmpty_iff.mp ht, List.nil_append, run_cons, step_lineFeed, if_pos h]
    rfl
  next =>
    rw [run_indentLines h, flatMap_lines (Text.split_ne_nil t), Text.join_split]

/-! ## What a text spells -/

/-- Between two statements, the text is read as the statements `ss`. -/
def Spells (t : Text) (ss : List (Statement Text Text)) : Prop :=
  ∀ before around,
    run ⟨.code, [], before, around⟩ t = some ⟨.code, [], ss.reverse ++ before, around⟩

theorem Spells.nil : Spells [] [] := fun _ _ => rfl

theorem Spells.append {t u : Text} {ss us : List (Statement Text Text)} (ht : Spells t ss)
    (hu : Spells u us) : Spells (t ++ u) (ss ++ us) := by
  intro before around
  rw [run_append, ht, Option.bind_some, hu]
  simp

theorem spells_lineFeed : Spells ['\n'] [] := fun _ _ => rfl

theorem Spells.blockPart {t : Text} {ss : List (Statement Text Text)} (h : Spells t ss) :
    Spells (blockPart t) ss := by
  intro before around
  have hline := h.append spells_lineFeed before around
  rw [List.append_nil] at hline
  rw [run_blockPart rfl, hline]

theorem Spells.join {ts : List Text} {sss : List (List (Statement Text Text))}
    (h : List.Forall₂ Spells ts sss) : Spells (Text.join ts) sss.flatten := by
  induction h with
  | nil => exact Spells.nil
  | @cons t ss ts sss ht hts ih =>
    cases hts with
    | nil => simpa [Text.join] using ht
    | @cons u us ts sss hu hts =>
      have hjoin : Text.join (t :: u :: ts) = t ++ (['\n'] ++ Text.join (u :: ts)) :=
        Text.intercalate_cons_cons ['\n'] t u ts
      rw [hjoin, List.flatten_cons]
      exact ht.append (spells_lineFeed.append ih)

theorem Spells.parts {ts : List Text} {sss : List (List (Statement Text Text))}
    (h : List.Forall₂ Spells ts sss) : Spells (ts.flatMap Script.blockPart) sss.flatten := by
  induction h with
  | nil => exact Spells.nil
  | cons ht _ ih => exact ht.blockPart.append ih

/-- A block is its head and what its parts spell. -/
theorem Spells.block {head word : Text} {ts : List Text} {sss : List (List (Statement Text Text))}
    (hhead : Collects head word) (h : List.Forall₂ Spells ts sss) :
    Spells (block head ts) [.block word sss.flatten] := by
  intro before around
  have hopen : run ⟨.code, word.reverse, before, around⟩ " \x7b\n".toList
      = some ⟨.code, [], [], (word, before) :: around⟩ := by
    simp [run_cons, run_nil, step, isBlank]
  have hclose (inside : List (Statement Text Text)) :
      run ⟨.code, [], inside, (word, before) :: around⟩ "\x7d;".toList
        = some ⟨.code, [], .block word inside.reverse :: before, around⟩ := by
    simp [run_cons, run_nil, step, isBlank]
  rw [Script.block, run_append, run_append, run_append, hhead]
  simp only [Option.bind_some, List.append_nil, hopen, Spells.parts h [] _, hclose,
    List.reverse_reverse]
  rfl

/-- A call with a semicolon behind it is a leaf. -/
theorem Collects.leaf {t word : Text} (h : Collects t word) (hne : word ≠ []) :
    Spells (t ++ [';']) [.leaf word] := by
  intro before around
  rw [run_append, h]
  simp [run_cons, run_nil, step, isBlank, hne]

theorem read_of_spells {t : Text} {ss : List (Statement Text Text)} (h : Spells t ss) :
    read t = some ss := by
  simp [read, h [] []]

end Script

end SolidScript
