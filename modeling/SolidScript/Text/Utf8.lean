import SolidScript.Text.Basic

/-!
# UTF-8

Texts as bytes, and bytes as texts. `decode?` reads well-formed UTF-8 and nothing else; `lossy`
reads every list of bytes, and puts the replacement character U+FFFD for each longest start of a
character that is not carried on.
-/

namespace SolidScript.Utf8

/-- The bytes of one character: one to four, by the size of its code point. -/
def encodeChar (c : Char) : Bytes :=
  let n := c.toNat
  if n < 0x80 then [UInt8.ofNat n]
  else if n < 0x800 then
    [UInt8.ofNat (0xC0 + n / 0x40), UInt8.ofNat (0x80 + n % 0x40)]
  else if n < 0x10000 then
    [UInt8.ofNat (0xE0 + n / 0x1000), UInt8.ofNat (0x80 + n / 0x40 % 0x40),
      UInt8.ofNat (0x80 + n % 0x40)]
  else
    [UInt8.ofNat (0xF0 + n / 0x40000), UInt8.ofNat (0x80 + n / 0x1000 % 0x40),
      UInt8.ofNat (0x80 + n / 0x40 % 0x40), UInt8.ofNat (0x80 + n % 0x40)]

/-- The bytes of a text. -/
def encode (t : Text) : Bytes := t.flatMap encodeChar

/-- The number of bytes of a text. -/
def size (t : Text) : Nat := t.foldr (fun c n => (encodeChar c).length + n) 0

/-- A byte that carries on a character. -/
def isTail (b : UInt8) : Bool := 0x80 ≤ b.toNat && b.toNat ≤ 0xBF

/-- The bytes that may follow the first byte `b` of a character of more than one byte, as the
least and the greatest, and the number of bytes after the first. `none` if no such character starts
with `b`. The narrow ranges keep out long spellings of short characters, surrogates, and code
points past the last. -/
def lead (b : UInt8) : Option (Nat × Nat × Nat) :=
  let n := b.toNat
  if 0xC2 ≤ n && n ≤ 0xDF then some (0x80, 0xBF, 1)
  else if n = 0xE0 then some (0xA0, 0xBF, 2)
  else if n = 0xED then some (0x80, 0x9F, 2)
  else if 0xE1 ≤ n && n ≤ 0xEF then some (0x80, 0xBF, 2)
  else if n = 0xF0 then some (0x90, 0xBF, 3)
  else if n = 0xF4 then some (0x80, 0x8F, 3)
  else if 0xF1 ≤ n && n ≤ 0xF3 then some (0x80, 0xBF, 3)
  else none

/-- The payload of a byte that carries on a character. -/
def tailBits (b : UInt8) : Nat := b.toNat % 0x40

/-- A part of a list of bytes: a character, or the start of one that is not carried on. -/
inductive Piece where
  | char (c : Char)
  | broken
deriving DecidableEq, Repr

/-- The list of bytes cut into characters and broken starts, put behind those of `done`, which
stand in reverse. -/
def cut (done : List Piece) : Bytes → List Piece
  | [] => done.reverse
  | a :: r =>
    if a.toNat < 0x80 then cut (.char (Char.ofNat a.toNat) :: done) r
    else match lead a, r with
      | none, r => cut (.broken :: done) r
      | some _, [] => (Piece.broken :: done).reverse
      | some (lo, hi, more), b :: r =>
        if lo ≤ b.toNat && b.toNat ≤ hi then
          match more, r with
          | 1, r => cut (.char (Char.ofNat (a.toNat % 0x20 * 0x40 + tailBits b)) :: done) r
          | _, [] => (Piece.broken :: done).reverse
          | more, c :: r =>
            if isTail c then
              match more, r with
              | 2, r =>
                cut (.char (Char.ofNat
                  (a.toNat % 0x10 * 0x1000 + tailBits b * 0x40 + tailBits c)) :: done) r
              | _, [] => (Piece.broken :: done).reverse
              | _, d :: r =>
                if isTail d then
                  cut (.char (Char.ofNat (a.toNat % 0x8 * 0x40000 + tailBits b * 0x1000
                    + tailBits c * 0x40 + tailBits d)) :: done) r
                else cut (.broken :: done) (d :: r)
            else cut (.broken :: done) (c :: r)
        else cut (.broken :: done) (b :: r)

/-- The characters and broken starts of a list of bytes. -/
def pieces (bs : Bytes) : List Piece := cut [] bs

/-- The character of a piece, if it is one. -/
def Piece.char? : Piece → Option Char
  | .char c => some c
  | .broken => none

/-- The text that the bytes spell, if they are well-formed. -/
def decode? (bs : Bytes) : Option Text := (pieces bs).mapM Piece.char?

/-- The text that the bytes spell, with U+FFFD for every broken start. -/
def lossy (bs : Bytes) : Text := (pieces bs).map fun p => p.char?.getD '\uFFFD'

/-- A long spelling, a surrogate and a code point past the last are no characters. -/
example : [decode? [0xC0, 0x80], decode? [0xED, 0xA0, 0x80], decode? [0xF4, 0x90, 0x80, 0x80]]
    = [none, none, none] := by decide +kernel

/-- The start of a character that is not carried on is one broken piece, whatever its length. -/
example : lossy [0x61, 0xF0, 0x9F, 0x98, 0x62, 0xFF, 0xE2, 0x82]
    = "a\uFFFDb\uFFFD\uFFFD".toList := by decide +kernel

end SolidScript.Utf8
