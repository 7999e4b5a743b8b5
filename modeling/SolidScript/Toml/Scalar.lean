import SolidScript.Number.Decimal
import SolidScript.Toml.Lexeme

/-!
# Scalars

Numbers, words and moments of settings files. Whole numbers have 64 bits with a sign, and one that
does not fit makes the file unreadable; so does a fraction past all values, unless it is negative.
-/

namespace SolidScript.Toml

/-! ## Whole numbers -/

/-- The digits that follow those in `done`, which stand in reverse. Single underscores between
digits are left out. -/
def groupedFrom (isDigit : Char → Bool) (done : Text) : Text → Text × Text
  | [] => (done.reverse, [])
  | '_' :: c :: r =>
    if isDigit c then groupedFrom isDigit (c :: done) r else (done.reverse, '_' :: c :: r)
  | c :: r => if isDigit c then groupedFrom isDigit (c :: done) r else (done.reverse, c :: r)

/-- At least one digit. -/
def grouped (isDigit : Char → Bool) : Scan Text
  | [] => none
  | c :: r => if isDigit c then some (groupedFrom isDigit [c] r) else none

/-- The digits before the point. A zero stands alone. -/
def whole : Scan Text
  | '0' :: r => some (['0'], r)
  | t => grouped Char.isDigit t

/-- The rest behind a sign, and whether it is a minus. -/
def sign : Text → Bool × Text
  | '-' :: r => (true, r)
  | '+' :: r => (false, r)
  | t => (false, t)

def fits (i : Int) : Bool :=
  -0x8000000000000000 ≤ i && i < 0x8000000000000000

/-- A number in base two, eight or sixteen, behind the mark of its base. -/
def based (base : Nat) : Scan Toml := fun t =>
  match grouped (fun c => (Hex.value? c).any (· < base)) t with
  | none => none
  | some (ds, r) =>
    let n := ds.foldl (fun n c => base * n + (Hex.value? c).getD 0) 0
    if fits n then some (.integer n, r) else none

def integerNumeral : Scan Toml
  | '0' :: 'x' :: r => based 16 r
  | '0' :: 'o' :: r => based 8 r
  | '0' :: 'b' :: r => based 2 r
  | t =>
    let (negative, r) := sign t
    match whole r with
    | none => none
    | some (ds, r) =>
      let i : Int := if negative then -(ofDigits ds : Int) else ofDigits ds
      if fits i then some (.integer i, r) else none

/-! ## Fractions -/

/-- The digits behind a point, and none if there is no point. -/
def fraction : Scan Text
  | '.' :: r => grouped Char.isDigit r
  | t => some ([], t)

/-- The exponent, and none if there is no mark of one. -/
def exponent : Scan (Option Int)
  | c :: r =>
    if c = 'e' ∨ c = 'E' then
      let (negative, r) := sign r
      (grouped Char.isDigit r).map fun (ds, r) =>
        (some (if negative then -(ofDigits ds : Int) else ofDigits ds), r)
    else some (none, c :: r)
  | [] => some (none, [])

/-- A number with a fraction or an exponent. -/
def fractional : Scan Toml := fun t =>
  let (negative, r) := sign t
  match whole r with
  | none => none
  | some (ds, r) =>
    match fraction r with
    | none => none
    | some (fs, r) =>
      match exponent r with
      | none => none
      | some (e, r) =>
        let x := Decimal.round negative ⟨ofDigits (ds ++ fs), e.getD 0 - fs.length⟩
        if fs = [] ∧ e = none then none
        else if x.isInfinite && !negative then none
        else some (.float x, r)

/-- Infinity, or what is no number. -/
def unusual : Scan Toml := fun t =>
  match sign t with
  | (negative, 'i' :: 'n' :: 'f' :: r) =>
    some (.float (.withSign negative Binary64.infinityWord), r)
  | (_, 'n' :: 'a' :: 'n' :: r) => some (.float .nan, r)
  | _ => none

/-! ## Moments -/

/-- A number of exactly `count` digits, put behind `n`. -/
def digitsFrom (n : Nat) : Nat → Scan Nat
  | 0, t => some (n, t)
  | _ + 1, [] => none
  | count + 1, c :: r =>
    if c.isDigit then digitsFrom (10 * n + digitValue c) count r else none

/-- A number of exactly `count` digits between two bounds. -/
def digitsWithin (count low high : Nat) : Scan Nat := fun t =>
  match digitsFrom 0 count t with
  | none => none
  | some (n, r) => if low ≤ n ∧ n ≤ high then some (n, r) else none

def isLeapYear (year : Nat) : Bool := year % 4 = 0 && (year % 100 ≠ 0 || year % 400 = 0)

/-- The number of days of a month of a year. -/
def monthLength (year month : Nat) : Nat :=
  if month = 2 then if isLeapYear year then 29 else 28
  else if month = 4 ∨ month = 6 ∨ month = 9 ∨ month = 11 then 30
  else 31

/-- The rest behind a given character. -/
def behind (mark : Char) : Text → Option Text
  | [] => none
  | c :: r => if c = mark then some r else none

/-- The rest behind a date that the calendar has. -/
def date? (t : Text) : Option Text := do
  let (year, t) ← digitsFrom 0 4 t
  let t ← behind '-' t
  let (month, t) ← digitsWithin 2 1 12 t
  let t ← behind '-' t
  let (_, t) ← digitsWithin 2 1 (monthLength year month) t
  return t

/-- The rest behind a fraction of a second, if there is one. -/
def secondFraction (t : Text) : Text :=
  match t with
  | '.' :: c :: r => if c.isDigit then r.dropWhile Char.isDigit else t
  | t => t

/-- The rest behind a time of day. A minute may have a second too many. -/
def time? (t : Text) : Option Text := do
  let (_, t) ← digitsWithin 2 0 23 t
  let t ← behind ':' t
  let (_, t) ← digitsWithin 2 0 59 t
  let t ← behind ':' t
  let (_, t) ← digitsWithin 2 0 60 t
  return secondFraction t

/-- The rest behind a distance from universal time. -/
def zone? (t : Text) : Option Text :=
  match t with
  | [] => none
  | c :: t =>
    if c = 'Z' ∨ c = 'z' then some t
    else if c = '+' ∨ c = '-' then do
      let (_, t) ← digitsWithin 2 0 23 t
      let t ← behind ':' t
      let (_, t) ← digitsWithin 2 0 59 t
      return t
    else none

/-- The rest behind a time of day with its zone, which follow a date. -/
def dayTime? (t : Text) : Option Text :=
  match t with
  | [] => none
  | c :: t =>
    if c = 'T' ∨ c = 't' ∨ c = ' ' then (time? t).map fun t => (zone? t).getD t else none

/-- A date, with or without a time of day, or a time of day alone. -/
def dateOrTime : Scan Toml := fun t =>
  match date? t with
  | some r => some (.moment, (dayTime? r).getD r)
  | none => (time? t).map fun r => (.moment, r)

/-! ## Any of them -/

/-- The rest behind a word. -/
def word? : Text → Text → Option Text
  | [], t => some t
  | _ :: _, [] => none
  | w :: ws, c :: r => if w = c then word? ws r else none

/-- A value that is neither an array nor a table. -/
def scalar : Scan Toml := fun t =>
  match t with
  | [] => none
  | c :: _ =>
    if c = '"' ∨ c = '\'' then (quoted t).map fun (s, r) => (.string s, r)
    else if c = 't' then (word? "true".toList t).map fun r => (.boolean true, r)
    else if c = 'f' then (word? "false".toList t).map fun r => (.boolean false, r)
    else dateOrTime t <|> fractional t <|> unusual t <|> integerNumeral t

end SolidScript.Toml
