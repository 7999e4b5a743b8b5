import SolidScript.Json.Lexeme
import SolidScript.Proofs.Number.Scale

/-!
# The grammar of documents

What stands in a document, told without a reader. Every part of the grammar is a relation between a
text and what is left of the text behind the part. `IsValue` is any value at all. A `Language` are
the texts of one value that a reader asks for, inside a number of brackets: a number, a flag, a
string, an array of some languages, a record of languages with names, or an object with one entry.
`IsDocument` is a whole text.
-/

namespace SolidScript.Json

/-! ## Blanks -/

/-- Behind some blanks, or none, the rest is left. -/
def Blanks (t r : Text) : Prop := ∃ bs : Text, bs.all isBlank = true ∧ t = bs ++ r

/-- What stands in front of an item: a comma between blanks, and only blanks in front of the first
item. -/
def Gap (first : Bool) (t r : Text) : Prop :=
  if first then Blanks t r else ∃ u, Blanks t (',' :: u) ∧ Blanks u r

/-! ## Strings -/

/-- What a backslash and one letter stand for. -/
def escapes : List (Char × Char) :=
  [('"', '"'), ('\\', '\\'), ('/', '/'), ('b', '\x08'), ('f', '\x0c'), ('n', '\n'), ('r', '\r'),
    ('t', '\t')]

/-- Four digits in base sixteen. -/
def HexUnit (t : Text) (n : Nat) (r : Text) : Prop :=
  ∃ a b c d va vb vc vd, t = a :: b :: c :: d :: r ∧ Hex.value? a = some va
    ∧ Hex.value? b = some vb ∧ Hex.value? c = some vc ∧ Hex.value? d = some vd
    ∧ n = va * 16 ^ 3 + vb * 16 ^ 2 + vc * 16 + vd

/-- The first half of a character past the first 65536. -/
def IsHigh (n : Nat) : Prop := 0xD800 ≤ n ∧ n < 0xDC00

/-- The second half. -/
def IsLow (n : Nat) : Prop := 0xDC00 ≤ n ∧ n < 0xE000

/-- A character behind a backslash. A half does not stand alone. -/
inductive Escape : Text → Char → Text → Prop where
  | letter {e c : Char} {r : Text} (h : (e, c) ∈ escapes) : Escape (e :: r) c r
  | unit {t r : Text} {n : Nat} (h : HexUnit t n r) (hhigh : ¬IsHigh n) (hlow : ¬IsLow n) :
    Escape ('u' :: t) (Char.ofNat n) r
  | pair {t u r : Text} {m n : Nat} (h : HexUnit t m ('\\' :: 'u' :: u)) (h' : HexUnit u n r)
    (hhigh : IsHigh m) (hlow : IsLow n) :
    Escape ('u' :: t) (Char.ofNat (0x10000 + (m - 0xD800) * 0x400 + (n - 0xDC00))) r

/-- A string behind its opening quote, up to its closing quote. -/
inductive StringTail : Text → Text → Text → Prop where
  | close (r : Text) : StringTail ('"' :: r) [] r
  | plain {c : Char} {t s r : Text} (hquote : c ≠ '"') (hback : c ≠ '\\')
    (hvisible : 0x20 ≤ c.toNat) (hrest : StringTail t s r) : StringTail (c :: t) (c :: s) r
  | escape {c : Char} {t u s r : Text} (h : Escape t c u) (hrest : StringTail u s r) :
    StringTail ('\\' :: t) (c :: s) r

/-- A string that nobody reads. Its halves of characters may stand alone. -/
inductive RawTail : Text → Text → Prop where
  | close (r : Text) : RawTail ('"' :: r) r
  | plain {c : Char} {t r : Text} (hquote : c ≠ '"') (hback : c ≠ '\\')
    (hvisible : 0x20 ≤ c.toNat) (hrest : RawTail t r) : RawTail (c :: t) r
  | letter {e c : Char} {t r : Text} (h : (e, c) ∈ escapes) (hrest : RawTail t r) :
    RawTail ('\\' :: e :: t) r
  | unit {t u r : Text} {n : Nat} (h : HexUnit t n u) (hrest : RawTail u r) :
    RawTail ('\\' :: 'u' :: t) r

/-! ## Numerals -/

/-- Digits, at least one. -/
structure Digits (t ds r : Text) : Prop where
  ne_nil : ds ≠ []
  isDigit : ∀ c ∈ ds, c.isDigit = true
  eq : t = ds ++ r

/-- The digits behind a point, if there is a point. -/
inductive Fraction : Text → Text → Text → Prop where
  | none (r : Text) : Fraction r [] r
  | some {t ds r : Text} (h : Digits t ds r) : Fraction ('.' :: t) ds r

/-- The exponent, if there is one. -/
inductive Exponent : Text → Int → Text → Prop where
  | none (r : Text) : Exponent r 0 r
  | unsigned {mark : Char} {t ds r : Text} (hmark : mark = 'e' ∨ mark = 'E') (h : Digits t ds r) :
    Exponent (mark :: t) (ofDigits ds) r
  | plus {mark : Char} {t ds r : Text} (hmark : mark = 'e' ∨ mark = 'E') (h : Digits t ds r) :
    Exponent (mark :: '+' :: t) (ofDigits ds) r
  | minus {mark : Char} {t ds r : Text} (hmark : mark = 'e' ∨ mark = 'E') (h : Digits t ds r) :
    Exponent (mark :: '-' :: t) (-ofDigits ds) r

/-- The parts of a numeral: the digits in front of the point, those behind it, and the exponent. -/
structure Parts where
  whole : Text
  fraction : Text
  exponent : Int

/-- The number that is spelled, digit for digit. -/
def Parts.decimal (p : Parts) : Decimal :=
  ⟨ofDigits (p.whole ++ p.fraction), p.exponent - p.fraction.length⟩

/-- A numeral without a sign. A zero in front of the point stands alone. -/
inductive IsUnsigned : Text → Parts → Text → Prop where
  | parts {t u v r whole fraction : Text} {e : Int} (hwhole : Digits t whole u)
    (hzero : whole.head? = some '0' → whole = ['0']) (hfraction : Fraction u fraction v)
    (hexponent : Exponent v e r) : IsUnsigned t ⟨whole, fraction, e⟩ r

/-- A numeral, with or without a minus sign. -/
inductive IsNumeral : Text → Bool → Parts → Text → Prop where
  | positive {t r : Text} {p : Parts} (h : IsUnsigned t p r) : IsNumeral t false p r
  | negative {t r : Text} {p : Parts} (h : IsUnsigned t p r) : IsNumeral ('-' :: t) true p r

/-- Of the digits behind others, those up to the first that makes the number too great for 64 bits,
and those that are left. -/
structure Held (front taken left : Text) : Prop where
  lt : ofDigits (front ++ taken) < 2 ^ 64
  full : ∀ c ∈ left.head?, 2 ^ 64 ≤ ofDigits (front ++ taken ++ [c])

/-- The number that is spelled, as far as 64 bits hold its digits. Digits that are left in front of
the point make it ten times as great each. Those that are left behind it count for nothing. -/
inductive Parts.Keeps : Parts → Decimal → Prop where
  | digits {whole skipped fraction left : Text} {e : Int} (hwhole : Held [] whole skipped)
    (hfraction : Held whole fraction left) : Keeps ⟨whole ++ skipped, fraction ++ left, e⟩
      ⟨ofDigits (whole ++ fraction), e + skipped.length - fraction.length⟩

/-! ## Any value -/

def words : List Text := ["null".toList, "true".toList, "false".toList]

mutual

/-- Any value. -/
inductive IsValue : Text → Text → Prop where
  | word {w : Text} (h : w ∈ words) (r : Text) : IsValue (w ++ r) r
  | number {t r : Text} {negative : Bool} {p : Parts} (h : IsNumeral t negative p r) : IsValue t r
  | string {t r : Text} (h : RawTail t r) : IsValue ('"' :: t) r
  | array {t r : Text} (h : AreItems true t r) : IsValue ('[' :: t) r
  | object {t r : Text} (h : AreEntries true t r) : IsValue ('\x7b' :: t) r

/-- The items of any array, and its closing bracket. -/
inductive AreItems : Bool → Text → Text → Prop where
  | close {first : Bool} {t r : Text} (h : Blanks t (']' :: r)) : AreItems first t r
  | item {first : Bool} {t u v r : Text} (hgap : Gap first t u) (h : IsValue u v)
    (hrest : AreItems false v r) : AreItems first t r

/-- The entries of any object, and its closing bracket. -/
inductive AreEntries : Bool → Text → Text → Prop where
  | close {first : Bool} {t r : Text} (h : Blanks t ('\x7d' :: r)) : AreEntries first t r
  | entry {first : Bool} {t u v w x y r : Text} (hgap : Gap first t ('"' :: u))
    (hkey : RawTail u v) (hcolon : Blanks v (':' :: w)) (hblank : Blanks w x) (h : IsValue x y)
    (hrest : AreEntries false y r) : AreEntries first t r

end

/-! ## Languages -/

/-- The texts of a value that opens a number of brackets at most. -/
abbrev Language := Nat → Text → Text → Prop

/-- A key with its colon. -/
def Key (t key r : Text) : Prop := ∃ u v, t = '"' :: u ∧ StringTail u key v ∧ Blanks v (':' :: r)

namespace Language

/-- Numerals that the number is read from: the digits that are kept make a decimal, and this is
scaled to the number. -/
def number (x : Binary64) : Language := fun _ t r =>
  ∃ negative p d, IsNumeral t negative p r ∧ p.Keeps d ∧ x.Scales negative d

def flag (b : Bool) : Language := fun _ t r =>
  t = (if b then "true".toList else "false".toList) ++ r

def string (s : Text) : Language := fun _ t r => ∃ u, t = '"' :: u ∧ StringTail u s r

/-- Items in order, and the closing bracket of their array. -/
inductive Items (levels : Nat) : Bool → List Language → Text → Text → Prop where
  | close {first : Bool} {t r : Text} (h : Blanks t (']' :: r)) : Items levels first [] t r
  | item {first : Bool} {L : Language} {Ls : List Language} {t u v r : Text} (hgap : Gap first t u)
    (h : L levels u v) (hrest : Items levels false Ls v r) : Items levels first (L :: Ls) t r

/-- An array of exactly these items. -/
inductive array (Ls : List Language) : Language
  | bracket {levels : Nat} {t r : Text} (h : Items levels true Ls t r) :
    array Ls (levels + 1) ('[' :: t) r

/-- The fields that are still missing, in any order, and the closing bracket of their object. There
may be other entries, whose keys are none of the names. -/
inductive Fields (levels : Nat) (names : List Text) :
    Bool → List (Text × Language) → Text → Text → Prop where
  | close {first : Bool} {t r : Text} (h : Blanks t ('\x7d' :: r)) :
    Fields levels names first [] t r
  | field {first : Bool} {missing : List (Text × Language)} {name : Text} {L : Language}
    {t u v w x r : Text} (hgap : Gap first t u) (hkey : Key u name v)
    (hmissing : (name, L) ∈ missing) (hblank : Blanks v w) (h : L levels w x)
    (hrest : Fields levels names false (missing.filter fun f => f.1 ≠ name) x r) :
    Fields levels names first missing t r
  | unknown {first : Bool} {missing : List (Text × Language)} {key : Text} {t u v w x r : Text}
    (hgap : Gap first t u) (hkey : Key u key v) (hunknown : key ∉ names) (hblank : Blanks v w)
    (h : IsValue w x) (hrest : Fields levels names false missing x r) :
    Fields levels names first missing t r

/-- An object that holds each of the fields once. -/
inductive object (fields : List (Text × Language)) : Language
  | bracket {levels : Nat} {t r : Text} (h : Fields levels (fields.map Prod.fst) true fields t r) :
    object fields (levels + 1) ('\x7b' :: t) r

/-- A record: an object with these fields, or an array of them in the given order. -/
def record (fields : List (Text × Language)) : Language := fun levels t r =>
  object fields levels t r ∨ array (fields.map Prod.snd) levels t r

/-- An object with one entry. -/
inductive entry (key : Text) (content : Language) : Language
  | bracket {levels : Nat} {t u v w x r : Text} (hopen : Blanks t u) (hkey : Key u key v)
    (hblank : Blanks v w) (h : content levels w x) (hclose : Blanks x ('\x7d' :: r)) :
    entry key content (levels + 1) ('\x7b' :: t) r

end Language

/-- A whole text, with blanks around the value. -/
def IsDocument (L : Language) (levels : Nat) (s : Text) : Prop :=
  ∃ t r, Blanks s t ∧ L levels t r ∧ Blanks r []

end SolidScript.Json
