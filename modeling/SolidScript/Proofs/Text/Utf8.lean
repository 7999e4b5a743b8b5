import SolidScript.Text.Utf8.Lemmas

/-!
# Bytes that spell a text

A list of bytes is either cut into characters only, and then it is what these are written as, or one
of its pieces is broken. So bytes that are read as a text are the bytes of that text
(`encode_of_decode?`): no text has two spellings.
-/

namespace SolidScript.Utf8

/-! ## First bytes -/

/-- What the first byte of a longer character says of the second one, by the number of bytes behind
the first. -/
theorem lead_cases {a : UInt8} {lo hi more : Nat} (h : lead a = some (lo, hi, more)) :
    (more = 1 ∧ 0xC2 ≤ a.toNat ∧ a.toNat ≤ 0xDF ∧ 0x80 ≤ lo ∧ hi ≤ 0xBF)
      ∨ (more = 2 ∧ 0xE0 ≤ a.toNat ∧ a.toNat ≤ 0xEF ∧ 0x80 ≤ lo ∧ hi ≤ 0xBF
        ∧ (a.toNat = 0xE0 → 0xA0 ≤ lo) ∧ (a.toNat = 0xED → hi ≤ 0x9F))
      ∨ (more = 3 ∧ 0xF0 ≤ a.toNat ∧ a.toNat ≤ 0xF4 ∧ 0x80 ≤ lo ∧ hi ≤ 0xBF
        ∧ (a.toNat = 0xF0 → 0x90 ≤ lo) ∧ (a.toNat = 0xF4 → hi ≤ 0x8F)) := by
  simp only [lead, Bool.and_eq_true, decide_eq_true_eq] at h
  split at h
  next => cases h; omega
  split at h
  next => cases h; omega
  split at h
  next => cases h; omega
  split at h
  next => cases h; omega
  split at h
  next => cases h; omega
  split at h
  next => cases h; omega
  split at h
  next => cases h; omega
  next => cases h

theorem toNat_ofNat_of_valid {n : Nat} (h : n < 0xD800 ∨ (0xDFFF < n ∧ n < 0x110000)) :
    (Char.ofNat n).toNat = n := by
  have hvalid : n.isValidChar := h
  rw [Char.ofNat, dif_pos hvalid]
  rfl

/-! ## Characters of one to four bytes -/

theorem ofNat_eq_of_toNat {n : Nat} {a : UInt8} (h : n = a.toNat) : UInt8.ofNat n = a := by
  rw [h, UInt8.ofNat_toNat]

theorem encodeChar_one {a : UInt8} (ha : a.toNat < 0x80) :
    encodeChar (Char.ofNat a.toNat) = [a] := by
  rw [encodeChar, toNat_ofNat_of_valid (by omega), if_pos ha, UInt8.ofNat_toNat]

theorem encodeChar_two {a b : UInt8} (hlo : 0xC2 ≤ a.toNat) (hhi : a.toNat ≤ 0xDF)
    (hb : 0x80 ≤ b.toNat) (hb' : b.toNat ≤ 0xBF) :
    encodeChar (Char.ofNat (a.toNat % 0x20 * 0x40 + tailBits b)) = [a, b] := by
  have htail : tailBits b = b.toNat - 0x80 := by rw [tailBits]; omega
  rw [encodeChar, htail, toNat_ofNat_of_valid (by omega), if_neg (by omega), if_pos (by omega),
    ofNat_eq_of_toNat (a := a) (by omega), ofNat_eq_of_toNat (a := b) (by omega)]

theorem encodeChar_three {a b c : UInt8} (hlo : 0xE0 ≤ a.toNat) (hhi : a.toNat ≤ 0xEF)
    (hb : 0x80 ≤ b.toNat) (hb' : b.toNat ≤ 0xBF) (hlong : a.toNat = 0xE0 → 0xA0 ≤ b.toNat)
    (hhalf : a.toNat = 0xED → b.toNat ≤ 0x9F) (hc : isTail c = true) :
    encodeChar (Char.ofNat (a.toNat % 0x10 * 0x1000 + tailBits b * 0x40 + tailBits c))
      = [a, b, c] := by
  simp only [isTail, Bool.and_eq_true, decide_eq_true_eq] at hc
  have hbits : tailBits b = b.toNat - 0x80 := by rw [tailBits]; omega
  have hcits : tailBits c = c.toNat - 0x80 := by rw [tailBits]; omega
  rw [encodeChar, hbits, hcits, toNat_ofNat_of_valid (by omega), if_neg (by omega),
    if_neg (by omega), if_pos (by omega), ofNat_eq_of_toNat (a := a) (by omega),
    ofNat_eq_of_toNat (a := b) (by omega), ofNat_eq_of_toNat (a := c) (by omega)]

theorem encodeChar_four {a b c d : UInt8} (hlo : 0xF0 ≤ a.toNat) (hhi : a.toNat ≤ 0xF4)
    (hb : 0x80 ≤ b.toNat) (hb' : b.toNat ≤ 0xBF) (hlong : a.toNat = 0xF0 → 0x90 ≤ b.toNat)
    (hpast : a.toNat = 0xF4 → b.toNat ≤ 0x8F) (hc : isTail c = true) (hd : isTail d = true) :
    encodeChar (Char.ofNat (a.toNat % 0x8 * 0x40000 + tailBits b * 0x1000 + tailBits c * 0x40
      + tailBits d)) = [a, b, c, d] := by
  simp only [isTail, Bool.and_eq_true, decide_eq_true_eq] at hc hd
  have hbits : tailBits b = b.toNat - 0x80 := by rw [tailBits]; omega
  have hcits : tailBits c = c.toNat - 0x80 := by rw [tailBits]; omega
  have hdits : tailBits d = d.toNat - 0x80 := by rw [tailBits]; omega
  rw [encodeChar, hbits, hcits, hdits, toNat_ofNat_of_valid (by omega), if_neg (by omega),
    if_neg (by omega), if_neg (by omega), ofNat_eq_of_toNat (a := a) (by omega),
    ofNat_eq_of_toNat (a := b) (by omega), ofNat_eq_of_toNat (a := c) (by omega),
    ofNat_eq_of_toNat (a := d) (by omega)]

/-! ## Lists of bytes -/

/-- The pieces `ps` of the bytes `bs` behind those of `done`: one of them is broken, or the bytes
are what characters are written as. -/
def Accounts (done : List Piece) (bs : Bytes) (ps : List Piece) : Prop :=
  .broken ∈ ps ∨ ∃ t, bs = encode t ∧ ps = done.reverse ++ t.map Piece.char

theorem Accounts.char {done ps : List Piece} {r : Bytes} {c : Char} (bs : Bytes)
    (hc : encodeChar c = bs) (h : Accounts (.char c :: done) r ps) :
    Accounts done (bs ++ r) ps := by
  rcases h with h | ⟨t, hr, hps⟩
  · exact Or.inl h
  · refine Or.inr ⟨c :: t, ?_, ?_⟩
    · rw [hr, ← hc]
      rfl
    · rw [hps]
      simp

theorem Accounts.broken {done ps : List Piece} {bs bs' : Bytes}
    (h : Accounts (.broken :: done) bs ps) : Accounts done bs' ps := by
  rcases h with h | ⟨t, -, hps⟩
  · exact Or.inl h
  · left
    rw [hps]
    simp

theorem accounts_cut (done : List Piece) (bs : Bytes) : Accounts done bs (cut done bs) := by
  have hend (done : List Piece) (bs : Bytes) : Accounts done bs (Piece.broken :: done).reverse :=
    Or.inl (by simp)
  -- a piece that is cut off is a character of one to four bytes, or it is broken
  fun_induction cut done bs with
  | case1 done => exact Or.inr ⟨[], rfl, by simp⟩
  | case2 done a r ha ih => exact ih.char [a] (encodeChar_one ha)
  | case3 done a ha r hlead ih => exact ih.broken
  | case4 => exact hend _ _
  | case5 done a ha lo hi b hb r hlead ih =>
    have ha' := lead_cases hlead
    simp only [Bool.and_eq_true, decide_eq_true_eq] at hb
    exact ih.char [a, b] (encodeChar_two (by omega) (by omega) (by omega) (by omega))
  | case6 => exact hend _ _
  | case7 done a ha lo hi b hb c hc r _ hlead ih =>
    have ha' := lead_cases hlead
    simp only [Bool.and_eq_true, decide_eq_true_eq] at hb
    exact ih.char [a, b, c] (encodeChar_three (by omega) (by omega) (by omega) (by omega)
      (by omega) (by omega) hc)
  | case8 => exact hend _ _
  | case9 done a ha lo hi b hb more c hone hc d r hd htwo hlead ih =>
    have ha' := (lead_cases hlead).resolve_left fun h => hone h.1
    replace ha' := ha'.resolve_left fun h => htwo h.1
    simp only [Bool.and_eq_true, decide_eq_true_eq] at hb
    exact ih.char [a, b, c, d] (encodeChar_four (by omega) (by omega) (by omega) (by omega)
      (by omega) (by omega) hc hd)
  | case10 _ _ _ _ _ _ _ _ _ _ _ _ _ _ _ _ ih => exact ih.broken
  | case11 _ _ _ _ _ _ _ _ _ _ _ _ _ ih => exact ih.broken
  | case12 _ _ _ _ _ _ _ _ _ _ ih => exact ih.broken

theorem mapM_char?_eq_none {ps : List Piece} (h : .broken ∈ ps) :
    ps.mapM Piece.char? = none := by
  induction ps with
  | nil => cases h
  | cons p ps ih =>
    rw [List.mapM_cons]
    rcases List.mem_cons.mp h with rfl | h
    · rfl
    · rw [ih h]
      cases p.char? <;> rfl

/-- Bytes that are read as a text are the bytes of that text. -/
theorem encode_of_decode? {bs : Bytes} {t : Text} (h : decode? bs = some t) : encode t = bs := by
  rcases accounts_cut [] bs with hbroken | ⟨u, hbs, -⟩
  · rw [decode?, pieces, mapM_char?_eq_none hbroken] at h
    cases h
  · rw [hbs, decode?_encode, Option.some_inj] at h
    rw [hbs, h]

end SolidScript.Utf8
