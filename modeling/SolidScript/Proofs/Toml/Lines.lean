import SolidScript.Proofs.Number.Digits
import SolidScript.Proofs.Toml.Tables

/-!
# Lines of settings files

A line gives a name a whole number: `name = number`. Lines with different names are read as what
they say, in their order (`parse?_numberLines`). A number could be the start of a moment or of a fraction,
so both are tried on it first; neither gets past the digits, because a line feed follows these.
-/

namespace SolidScript.Toml

variable {ds r : Text} {n : Nat}

/-! ## Whole numbers -/

theorem groupedFrom_digits (h : ∀ c ∈ ds, c.isDigit = true) (done r : Text) :
    groupedFrom Char.isDigit done (ds ++ '\n' :: r) = (done.reverse ++ ds, '\n' :: r) := by
  induction ds generalizing done with
  | nil => simp [groupedFrom]
  | cons d ds ih =>
    rw [List.forall_mem_cons] at h
    have hmark : d ≠ '_' := by
      rintro rfl
      exact absurd h.1 (by decide)
    have hstep : groupedFrom Char.isDigit done (d :: (ds ++ '\n' :: r))
        = groupedFrom Char.isDigit (d :: done) (ds ++ '\n' :: r) := by
      rw [groupedFrom.eq_def]
      split
      next heq => cases heq
      next heq => exact absurd (List.cons.inj heq).1 hmark
      next heq =>
        obtain ⟨rfl, rfl⟩ := List.cons.inj heq
        rw [if_pos h.1]
    rw [List.cons_append, hstep, ih h.2, List.reverse_cons, List.append_assoc,
      List.singleton_append]

/-- A number is its first digit and the digits behind it. A zero in front stands alone. -/
theorem exists_digits_eq_cons (n : Nat) : ∃ d ds, digits n = d :: ds ∧ d.isDigit = true
    ∧ (∀ c ∈ ds, c.isDigit = true) ∧ (d = '0' → ds = []) := by
  obtain ⟨d, ds, heq⟩ := List.exists_cons_of_ne_nil (digits_ne_nil n)
  have hall : ∀ c ∈ d :: ds, c.isDigit = true := fun c hc => isDigit_of_mem_digits (heq ▸ hc)
  rw [List.forall_mem_cons] at hall
  refine ⟨d, ds, heq, hall.1, hall.2, ?_⟩
  rintro rfl
  by_cases hn : n = 0
  · subst hn
    cases heq
    rfl
  · exact absurd (congrArg List.head? heq) (head?_digits_ne_zero hn)

theorem whole_digits (n : Nat) (r : Text) :
    whole (digits n ++ '\n' :: r) = some (digits n, '\n' :: r) := by
  obtain ⟨d, ds, heq, hd, hds, hzero⟩ := exists_digits_eq_cons n
  rw [heq, List.cons_append]
  by_cases h : d = '0'
  · obtain rfl := hzero h
    rw [h]
    rfl
  · have hwhole : whole (d :: (ds ++ '\n' :: r))
        = grouped Char.isDigit (d :: (ds ++ '\n' :: r)) := by
      rw [whole.eq_def]
      split
      next heq => exact absurd (List.cons.inj heq).1 h
      next => rfl
    rw [hwhole, grouped, if_pos hd, groupedFrom_digits hds]
    rfl

/-- There is no sign in front of a number. -/
theorem sign_digits (n : Nat) (r : Text) :
    sign (digits n ++ '\n' :: r) = (false, digits n ++ '\n' :: r) := by
  obtain ⟨d, ds, heq, hd, -⟩ := exists_digits_eq_cons n
  rw [heq, List.cons_append, sign.eq_def]
  split
  next heq =>
    rw [(List.cons.inj heq).1] at hd
    exact absurd hd (by decide)
  next heq =>
    rw [(List.cons.inj heq).1] at hd
    exact absurd hd (by decide)
  next => rfl

/-- A number without a sign or the mark of a base is read from its digits, if it fits. -/
theorem integerNumeral_digits (h : n < 2 ^ 63) (r : Text) :
    integerNumeral (digits n ++ '\n' :: r) = some (.integer n, '\n' :: r) := by
  have hfits : fits n = true := by
    simp only [fits, Bool.and_eq_true, decide_eq_true_eq]
    omega
  obtain ⟨d, ds, heq, -, -, hzero⟩ := exists_digits_eq_cons n
  have hbase {mark : Char} {t : Text} (hmark : mark ≠ '\n') :
      digits n ++ '\n' :: r ≠ '0' :: mark :: t := by
    rw [heq, List.cons_append]
    intro hstart
    obtain ⟨hd, hrest⟩ := List.cons.inj hstart
    rw [hzero hd] at hrest
    exact hmark (List.cons.inj hrest).1.symm
  rw [integerNumeral.eq_def]
  split
  next heq => exact absurd heq (hbase (by decide))
  next heq => exact absurd heq (hbase (by decide))
  next heq => exact absurd heq (hbase (by decide))
  next =>
    rw [sign_digits]
    dsimp only
    rw [whole_digits]
    dsimp only
    rw [ofDigits_digits, if_neg Bool.false_ne_true, if_pos hfits]

/-! ## What a number is not -/

/-- As many digits as are asked for are taken off, and nothing else. -/
theorem exists_of_digitsFrom {count m k : Nat} {t r : Text}
    (h : digitsFrom m count t = some (k, r)) :
    ∃ ds, t = ds ++ r ∧ ∀ c ∈ ds, c.isDigit = true := by
  induction count generalizing m t with
  | zero =>
    cases h
    exact ⟨[], rfl, List.forall_mem_nil _⟩
  | succ count ih =>
    cases t with
    | nil => cases h
    | cons c t =>
      rw [digitsFrom] at h
      split at h
      next hc =>
        obtain ⟨ds, rfl, hds⟩ := ih h
        exact ⟨c :: ds, rfl, List.forall_mem_cons.mpr ⟨hc, hds⟩⟩
      next => cases h

/-- Behind some of the digits of a number there is another one of them, or the line feed. -/
theorem behind_eq_none {mark : Char} (hdigit : mark.isDigit = false) (hmark : mark ≠ '\n')
    {es t : Text} (hds : ∀ c ∈ ds, c.isDigit = true) (hes : ∀ c ∈ es, c.isDigit = true)
    (heq : ds ++ '\n' :: r = es ++ t) : behind mark t = none := by
  rcases List.append_eq_append_iff.mp heq with ⟨fs, rfl, hfs⟩ | ⟨fs, rfl, rfl⟩
  · cases fs with
    | nil =>
      rw [List.nil_append] at hfs
      rw [← hfs, behind, if_neg (Ne.symm hmark)]
    | cons f fs =>
      -- the line feed would be a digit
      obtain ⟨rfl, -⟩ := List.cons.inj hfs
      exact absurd (hes '\n' (by simp)) (by decide)
  · cases fs with
    | nil => rw [List.nil_append, behind, if_neg (Ne.symm hmark)]
    | cons f fs =>
      have hf : f.isDigit = true := hds f (by simp)
      have hne : f ≠ mark := by
        rintro rfl
        exact absurd hf (by simp [hdigit])
      rw [List.cons_append, behind, if_neg hne]

theorem date?_digits (h : ∀ c ∈ ds, c.isDigit = true) (r : Text) :
    date? (ds ++ '\n' :: r) = none := by
  rw [date?]
  cases hyear : digitsFrom 0 4 (ds ++ '\n' :: r) with
  | none => rfl
  | some found =>
    obtain ⟨year, t⟩ := found
    obtain ⟨es, heq, hes⟩ := exists_of_digitsFrom hyear
    have hbehind : behind '-' t = none := behind_eq_none (by decide) (by decide) h hes heq
    rw [Option.bind_eq_bind, Option.bind_some]
    dsimp only
    rw [hbehind]
    rfl

theorem time?_digits (h : ∀ c ∈ ds, c.isDigit = true) (r : Text) :
    time? (ds ++ '\n' :: r) = none := by
  rw [time?, digitsWithin]
  cases hhour : digitsFrom 0 2 (ds ++ '\n' :: r) with
  | none => rfl
  | some found =>
    obtain ⟨hour, t⟩ := found
    obtain ⟨es, heq, hes⟩ := exists_of_digitsFrom hhour
    have hbehind : behind ':' t = none := behind_eq_none (by decide) (by decide) h hes heq
    dsimp only
    split
    next =>
      rw [Option.bind_eq_bind, Option.bind_some]
      dsimp only
      rw [hbehind]
      rfl
    next => rfl

/-- Without a point and without an exponent there is no fraction. -/
theorem fractional_digits (n : Nat) (r : Text) : fractional (digits n ++ '\n' :: r) = none := by
  rw [fractional, sign_digits]
  dsimp only
  rw [whole_digits]
  rfl

theorem unusual_digits (n : Nat) (r : Text) : unusual (digits n ++ '\n' :: r) = none := by
  obtain ⟨d, ds, heq, hd, -⟩ := exists_digits_eq_cons n
  rw [unusual, sign_digits, heq, List.cons_append]
  split
  next hstart =>
    rw [(List.cons.inj (Prod.mk.inj hstart).2).1] at hd
    exact absurd hd (by decide)
  next hstart =>
    rw [(List.cons.inj (Prod.mk.inj hstart).2).1] at hd
    exact absurd hd (by decide)
  next => rfl

/-- **A whole number is read from its digits**, and from all of them. -/
theorem scalar_digits (h : n < 2 ^ 63) (r : Text) :
    scalar (digits n ++ '\n' :: r) = some (.integer n, '\n' :: r) := by
  have hdigits : ∀ c ∈ digits n, c.isDigit = true := fun c hc => isDigit_of_mem_digits hc
  have hmoment : dateOrTime (digits n ++ '\n' :: r) = none := by
    rw [dateOrTime, date?_digits hdigits, time?_digits hdigits]
    rfl
  have hnumber := integerNumeral_digits h r
  have hfraction := fractional_digits n r
  have hunusual := unusual_digits n r
  obtain ⟨d, ds, heq, hd, -⟩ := exists_digits_eq_cons n
  rw [heq, List.cons_append] at hmoment hfraction hunusual hnumber ⊢
  have hne {c : Char} (hc : c.isDigit = false) : d ≠ c := by
    rintro rfl
    rw [hc] at hd
    cases hd
  rw [scalar]
  dsimp only
  rw [if_neg (not_or.mpr ⟨hne (by decide), hne (by decide)⟩), if_neg (hne (by decide)),
    if_neg (hne (by decide)), hmoment, hfraction, hunusual, hnumber]
  rfl

/-! ## Lines -/

/-- A line that gives a name a whole number. -/
def numberLine (name : Text) (n : Nat) : Text := name ++ " = ".toList ++ digits n ++ ['\n']

/-- A name that can stand in front of a sign of equality as it is. -/
def IsBareName (name : Text) : Prop := name ≠ [] ∧ ∀ c ∈ name, isBare c = true

variable {name : Text}

theorem IsBareName.exists_eq_cons (h : IsBareName name) :
    ∃ c cs, name = c :: cs ∧ isBare c = true := by
  obtain ⟨c, cs, rfl⟩ := List.exists_cons_of_ne_nil h.1
  exact ⟨c, cs, rfl, h.2 c List.mem_cons_self⟩

/-- A bare name starts with nothing that starts something else. -/
theorem IsBareName.head_ne (h : IsBareName name) {mark : Char} (hmark : isBare mark = false)
    {t u : Text} : name ++ t ≠ mark :: u := by
  obtain ⟨c, cs, rfl, hc⟩ := h.exists_eq_cons
  rintro heq
  rw [(List.cons.inj heq).1, hmark] at hc
  cases hc

theorem IsBareName.skipSpaces_eq (h : IsBareName name) (t : Text) :
    skipSpaces (name ++ t) = name ++ t := by
  obtain ⟨c, cs, rfl, hc⟩ := h.exists_eq_cons
  have hspace : isSpace c = false := by
    rw [Bool.eq_false_iff]
    rintro hspace
    rcases Bool.or_eq_true .. ▸ hspace with hspace | hspace
    · rw [of_decide_eq_true hspace] at hc
      exact absurd hc (by decide)
    · rw [of_decide_eq_true hspace] at hc
      exact absurd hc (by decide)
  exact List.dropWhile_cons_of_neg (by simp [hspace])

/-- A line on which a name stands is not over in front of it. -/
theorem IsBareName.lineEnd?_eq (h : IsBareName name) (t : Text) : lineEnd? (name ++ t) = none := by
  have hcomment : skipComment (name ++ t) = name ++ t := by
    rw [skipComment.eq_def]
    split
    next heq => exact absurd heq (h.head_ne (by decide))
    next => rfl
  have hnewline : newline? (name ++ t) = none := by
    rw [newline?.eq_def]
    split
    next heq => exact absurd heq (h.head_ne (by decide))
    next heq => exact absurd heq (h.head_ne (by decide))
    next => rfl
  obtain ⟨c, cs, rfl, -⟩ := h.exists_eq_cons
  rw [lineEnd?, h.skipSpaces_eq, hcomment]
  exact hnewline

theorem IsBareName.name_eq (h : IsBareName name) (t : Text) :
    Toml.name (name ++ ' ' :: t) = some (name, ' ' :: t) := by
  have hblank : isBare ' ' = false := by decide
  rw [Toml.name.eq_def]
  split
  next heq => exact absurd heq (h.head_ne (by decide))
  next heq => exact absurd heq (h.head_ne (by decide))
  next =>
    rw [List.takeWhile_append_of_pos h.2, List.dropWhile_append_of_pos h.2,
      List.takeWhile_cons_of_neg (by simp [hblank]), List.dropWhile_cons_of_neg (by simp [hblank]),
      List.append_nil, if_neg (by simp [h.1])]

theorem IsBareName.key_eq (h : IsBareName name) (t : Text) :
    key (name ++ ' ' :: '=' :: t) = some (⟨[], name⟩, '=' :: t) := by
  rw [key, keyLength, keyFrom, h.skipSpaces_eq, h.name_eq]
  rfl

/-- A number could be taken for a name: its characters are those of names. -/
theorem isBareName_digits (n : Nat) : IsBareName (digits n) := by
  refine ⟨digits_ne_nil n, fun c hc => ?_⟩
  rw [isBare, Char.isAlphanum, isDigit_of_mem_digits hc, Bool.or_true, Bool.true_or, Bool.true_or]

theorem value_digits (h : n < 2 ^ 63) (levels : Nat) (r : Text) :
    value levels (digits n ++ '\n' :: r) = some (.integer n, '\n' :: r) := by
  have hbracket {t : Text} : digits n ++ '\n' :: r ≠ '[' :: t :=
    (isBareName_digits n).head_ne (by decide)
  have hbrace {t : Text} : digits n ++ '\n' :: r ≠ '\x7b' :: t :=
    (isBareName_digits n).head_ne (by decide)
  rw [value.eq_def]
  split
  next heq => exact absurd heq hbracket
  next heq => exact absurd heq hbrace
  next heq => exact absurd heq hbracket
  next heq => exact absurd heq hbrace
  next => exact scalar_digits h r

theorem pair_numberLine (hname : IsBareName name) (h : n < 2 ^ 63) (levels : Nat) (r : Text) :
    pair (value levels) (numberLine name n ++ r) = some ((⟨[], name⟩, .integer n), '\n' :: r) := by
  have hline : numberLine name n ++ r = name ++ ' ' :: '=' :: ' ' :: (digits n ++ '\n' :: r) := by
    simp [numberLine]
  have hblank : skipSpaces (' ' :: (digits n ++ '\n' :: r)) = digits n ++ '\n' :: r :=
    (isBareName_digits n).skipSpaces_eq _
  rw [pair, hline, hname.key_eq]
  change Option.map _ (value levels (skipSpaces (' ' :: (digits n ++ '\n' :: r)))) = _
  rw [hblank, value_digits h]
  rfl

/-- A line is a statement, and the rest of the text is behind it. -/
theorem statement_numberLine (hname : IsBareName name) (h : n < 2 ^ 63) (r : Text) :
    statement (numberLine name n ++ r) = some (.entry ⟨[], name⟩ (.integer n), r) := by
  have hbracket {t : Text} : numberLine name n ++ r ≠ '[' :: t := by
    rw [numberLine, List.append_assoc, List.append_assoc, List.append_assoc]
    exact hname.head_ne (by decide)
  rw [statement.eq_def]
  split
  next heq => exact absurd heq hbracket
  next heq => exact absurd heq hbracket
  next =>
    rw [pair_numberLine hname h]
    rfl

/-- A line is one statement more. -/
theorem statementsFrom_numberLine (hname : IsBareName name) (h : n < 2 ^ 63) (fuel : Nat)
    (done : List Statement) (r : Text) :
    statementsFrom (fuel + 1) done (numberLine name n ++ r)
      = statementsFrom fuel (.entry ⟨[], name⟩ (.integer n) :: done) r := by
  obtain ⟨t, heq⟩ : ∃ t, numberLine name n ++ r = name ++ t :=
    ⟨" = ".toList ++ digits n ++ ['\n'] ++ r, by simp [numberLine]⟩
  have hstatement := statement_numberLine hname h r
  rw [heq] at hstatement
  rw [heq, statementsFrom.eq_def, hname.skipSpaces_eq]
  obtain ⟨c, cs, rfl, -⟩ := hname.exists_eq_cons
  rw [List.cons_append]
  dsimp only
  rw [← List.cons_append, hname.lineEnd?_eq, hstatement]

/-! ## Files of such lines -/

/-- A name and a number that a file can hold. -/
def IsRow (row : Text × Nat) : Prop := IsBareName row.1 ∧ row.2 < 2 ^ 63

/-- Names with numbers, as the lines of a file. -/
def numberLines (rows : List (Text × Nat)) : Text := rows.flatMap fun row => numberLine row.1 row.2

/-- What a line says. -/
def numberStatement (row : Text × Nat) : Statement := .entry ⟨[], row.1⟩ (.integer row.2)

def numberEntry (row : Text × Nat) : Text × Toml := (row.1, .integer row.2)

variable {rows : List (Text × Nat)}

theorem statementsFrom_numberLines (h : ∀ row ∈ rows, IsRow row) {fuel : Nat}
    (hfuel : rows.length < fuel) (done : List Statement) :
    statementsFrom fuel done (numberLines rows)
      = some (done.reverse ++ rows.map numberStatement) := by
  induction rows generalizing fuel done with
  | nil =>
    obtain ⟨fuel, rfl⟩ := Nat.exists_eq_add_one.mpr hfuel
    rw [List.map_nil, List.append_nil]
    rfl
  | cons row rows ih =>
    obtain ⟨fuel, rfl⟩ := Nat.exists_eq_add_one.mpr (Nat.zero_lt_of_lt hfuel)
    obtain ⟨⟨hname, hn⟩, hrows⟩ := List.forall_mem_cons.mp h
    rw [numberLines, List.flatMap_cons, ← numberLines, statementsFrom_numberLine hname hn,
      ih hrows (Nat.lt_of_succ_lt_succ hfuel), List.reverse_cons, List.append_assoc]
    rfl

/-- A line adds an entry at the end, if its name is new. -/
theorem add_numberStatement {es : Entries} {row : Text × Nat} (h : row.1 ∉ es.names) :
    (Draft.mk es []).add (numberStatement row) = some ⟨es ++ [numberEntry row], []⟩ := by
  have hlookup : es.lookup row.1 = none := Entries.lookup_eq_none_iff.mpr h
  simp [numberStatement, Draft.add, changeAt, enter, hlookup, numberEntry]

theorem foldlM_numberStatement {es : Entries} (h : (es.names ++ rows.map Prod.fst).Nodup) :
    (rows.map numberStatement).foldlM Draft.add ⟨es, []⟩
      = some ⟨es ++ rows.map numberEntry, []⟩ := by
  induction rows generalizing es with
  | nil =>
    rw [List.map_nil, List.map_nil, List.append_nil]
    rfl
  | cons row rows ih =>
    have hnew : row.1 ∉ es.names := by
      rw [List.map_cons, List.nodup_append] at h
      exact fun hmem => h.2.2 _ hmem _ List.mem_cons_self rfl
    have hnames : ((es ++ [numberEntry row]).names ++ rows.map Prod.fst).Nodup := by
      rw [Entries.names, List.map_append, List.append_assoc]
      exact h
    rw [List.map_cons, List.foldlM_cons, add_numberStatement hnew, Option.bind_eq_bind,
      Option.bind_some, ih hnames, List.append_assoc]
    rfl

theorem length_le_length_numberLines (rows : List (Text × Nat)) :
    rows.length ≤ (numberLines rows).length := by
  induction rows with
  | nil => exact Nat.le_refl 0
  | cons row rows ih =>
    rw [numberLines, List.flatMap_cons, ← numberLines]
    simp only [numberLine, List.length_append, List.length_cons, List.length_nil]
    omega

theorem dropMark_numberLines (h : ∀ row ∈ rows, IsRow row) :
    dropMark (numberLines rows) = numberLines rows := by
  rw [dropMark.eq_def]
  split
  next r heq =>
    cases rows with
    | nil => cases heq
    | cons row rows =>
      -- a line starts with a character of its name
      rw [numberLines, List.flatMap_cons, numberLine] at heq
      simp only [List.append_assoc] at heq
      exact absurd heq ((h row List.mem_cons_self).1.head_ne (by decide))
  next => rfl

/-- **Lines with different names are read as what they say**, in their order. -/
theorem parse?_numberLines (h : ∀ row ∈ rows, IsRow row) (hnames : (rows.map Prod.fst).Nodup) :
    parse? (numberLines rows) = some (rows.map numberEntry) := by
  have hfuel := Nat.lt_succ_of_le (length_le_length_numberLines rows)
  have hall : (Entries.names [] ++ rows.map Prod.fst).Nodup := hnames
  rw [parse?, dropMark_numberLines h, statementsFrom_numberLines h hfuel]
  dsimp only
  rw [List.reverse_nil, List.nil_append, ofStatements?, foldlM_numberStatement hall]
  rfl

end SolidScript.Toml
