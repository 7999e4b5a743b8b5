import SolidScript.Text.Utf8

/-!
# UTF-8, its laws

A text is read back from its bytes (`decode?_encode`), and bytes that spell a text are shown as that
text (`lossy_encode`).
-/

namespace SolidScript.Utf8

theorem toNat_ofNat_of_lt {n : Nat} (h : n < 256) : (UInt8.ofNat n).toNat = n := by
  simp only [UInt8.toNat_ofNat']
  omega

/-! ## Characters of one to four bytes -/

theorem cut_one (done : List Piece) {a : UInt8} (ha : a.toNat < 0x80) (r : Bytes) :
    cut done (a :: r) = cut (.char (Char.ofNat a.toNat) :: done) r := by
  rw [cut.eq_def]
  simp only [ha, if_true]

theorem cut_two (done : List Piece) {a b : UInt8} {lo hi : Nat} (ha : ¬a.toNat < 0x80)
    (hl : lead a = some (lo, hi, 1)) (hlo : lo ≤ b.toNat) (hhi : b.toNat ≤ hi) (r : Bytes) :
    cut done (a :: b :: r)
      = cut (.char (Char.ofNat (a.toNat % 0x20 * 0x40 + tailBits b)) :: done) r := by
  rw [cut.eq_def]
  simp only [ha, if_false, hl, hlo, hhi, decide_true, Bool.and_self, if_true]

theorem cut_three (done : List Piece) {a b c : UInt8} {lo hi : Nat} (ha : ¬a.toNat < 0x80)
    (hl : lead a = some (lo, hi, 2)) (hlo : lo ≤ b.toNat) (hhi : b.toNat ≤ hi)
    (hc : isTail c = true) (r : Bytes) :
    cut done (a :: b :: c :: r) = cut (.char (Char.ofNat
      (a.toNat % 0x10 * 0x1000 + tailBits b * 0x40 + tailBits c)) :: done) r := by
  rw [cut.eq_def]
  simp only [ha, if_false, hl, hlo, hhi, hc, decide_true, Bool.and_self, if_true]

theorem cut_four (done : List Piece) {a b c d : UInt8} {lo hi : Nat} (ha : ¬a.toNat < 0x80)
    (hl : lead a = some (lo, hi, 3)) (hlo : lo ≤ b.toNat) (hhi : b.toNat ≤ hi)
    (hc : isTail c = true) (hd : isTail d = true) (r : Bytes) :
    cut done (a :: b :: c :: d :: r) = cut (.char (Char.ofNat (a.toNat % 0x8 * 0x40000
      + tailBits b * 0x1000 + tailBits c * 0x40 + tailBits d)) :: done) r := by
  rw [cut.eq_def]
  simp only [ha, if_false, hl, hlo, hhi, hc, hd, decide_true, Bool.and_self, if_true]

/-! ## First bytes -/

theorem lead_two {n : Nat} (hlo : 0xC2 ≤ n) (hhi : n ≤ 0xDF) :
    lead (UInt8.ofNat n) = some (0x80, 0xBF, 1) := by
  have hn := toNat_ofNat_of_lt (n := n) (by omega)
  simp only [lead, hn]
  rw [if_pos (by simp; omega)]

/-- The range for the second byte leaves out what is spelled in two bytes, and surrogates. -/
theorem lead_three {n m : Nat} (hlo : 0xE0 ≤ n) (hhi : n ≤ 0xEF) (hm : m < 0x40)
    (hlong : n = 0xE0 → 0x20 ≤ m) (hhalf : n = 0xED → m < 0x20) :
    ∃ lo hi, lead (UInt8.ofNat n) = some (lo, hi, 2) ∧ lo ≤ 0x80 + m ∧ 0x80 + m ≤ hi := by
  have hn := toNat_ofNat_of_lt (n := n) (by omega)
  simp only [lead, hn]
  rw [if_neg (by simp; omega)]
  split
  next h => exact ⟨_, _, rfl, by omega, by omega⟩
  split
  next h => exact ⟨_, _, rfl, by omega, by omega⟩
  rw [if_pos (by simp; omega)]
  exact ⟨_, _, rfl, by omega, by omega⟩

/-- The range for the second byte leaves out what is spelled in three bytes, and what is past the
last code point. -/
theorem lead_four {n m : Nat} (hlo : 0xF0 ≤ n) (hhi : n ≤ 0xF4) (hm : m < 0x40)
    (hlong : n = 0xF0 → 0x10 ≤ m) (hpast : n = 0xF4 → m < 0x10) :
    ∃ lo hi, lead (UInt8.ofNat n) = some (lo, hi, 3) ∧ lo ≤ 0x80 + m ∧ 0x80 + m ≤ hi := by
  have hn := toNat_ofNat_of_lt (n := n) (by omega)
  simp only [lead, hn]
  rw [if_neg (by simp; omega), if_neg (by omega), if_neg (by omega), if_neg (by simp; omega)]
  split
  next h => exact ⟨_, _, rfl, by omega, by omega⟩
  split
  next h => exact ⟨_, _, rfl, by omega, by omega⟩
  rw [if_pos (by simp; omega)]
  exact ⟨_, _, rfl, by omega, by omega⟩

/-! ## Reading what was written -/

theorem isTail_ofNat {m : Nat} (hm : m < 0x40) : isTail (UInt8.ofNat (0x80 + m)) = true := by
  have hn := toNat_ofNat_of_lt (n := 0x80 + m) (by omega)
  simp only [isTail, hn, Bool.and_eq_true, decide_eq_true_eq]
  omega

theorem tailBits_ofNat {m : Nat} (hm : m < 0x40) : tailBits (UInt8.ofNat (0x80 + m)) = m := by
  rw [tailBits, toNat_ofNat_of_lt (by omega)]
  omega

/-- The bytes of a character are read as that character, whatever follows. -/
theorem cut_encodeChar (done : List Piece) (c : Char) (r : Bytes) :
    cut done (encodeChar c ++ r) = cut (.char c :: done) r := by
  have hvalid : c.toNat < 0xD800 ∨ (0xDFFF < c.toNat ∧ c.toNat < 0x110000) := by
    have := c.valid
    simpa [UInt32.isValidChar, Nat.isValidChar] using this
  have hc := Char.ofNat_toNat c
  simp only [encodeChar]
  generalize c.toNat = n at hvalid hc
  split
  next h =>
    have ha := toNat_ofNat_of_lt (n := n) (by omega)
    rw [List.singleton_append, cut_one _ (by omega), ha, hc]
  split
  next h =>
    have ha := toNat_ofNat_of_lt (n := 0xC0 + n / 0x40) (by omega)
    have hb := toNat_ofNat_of_lt (n := 0x80 + n % 0x40) (by omega)
    have hn : (0xC0 + n / 0x40) % 0x20 * 0x40 + n % 0x40 = n := by omega
    simp only [List.cons_append, List.nil_append]
    rw [cut_two _ (by omega) (lead_two (by omega) (by omega)) (by omega) (by omega), ha,
      tailBits_ofNat (Nat.mod_lt _ (by decide)), hn, hc]
  split
  next h =>
    have ha := toNat_ofNat_of_lt (n := 0xE0 + n / 0x1000) (by omega)
    have hb := toNat_ofNat_of_lt (n := 0x80 + n / 0x40 % 0x40) (by omega)
    have hn : (0xE0 + n / 0x1000) % 0x10 * 0x1000 + n / 0x40 % 0x40 * 0x40 + n % 0x40 = n := by
      omega
    obtain ⟨lo, hi, hl, hlo, hhi⟩ := lead_three (n := 0xE0 + n / 0x1000) (m := n / 0x40 % 0x40)
      (by omega) (by omega) (by omega) (by omega) (by omega)
    simp only [List.cons_append, List.nil_append]
    rw [cut_three _ (by omega) hl (by omega) (by omega)
      (isTail_ofNat (Nat.mod_lt _ (by decide))), ha,
      tailBits_ofNat (Nat.mod_lt _ (by decide)), tailBits_ofNat (Nat.mod_lt _ (by decide)), hn, hc]
  next h =>
    have ha := toNat_ofNat_of_lt (n := 0xF0 + n / 0x40000) (by omega)
    have hb := toNat_ofNat_of_lt (n := 0x80 + n / 0x1000 % 0x40) (by omega)
    have hn : (0xF0 + n / 0x40000) % 0x8 * 0x40000 + n / 0x1000 % 0x40 * 0x1000
        + n / 0x40 % 0x40 * 0x40 + n % 0x40 = n := by omega
    obtain ⟨lo, hi, hl, hlo, hhi⟩ := lead_four (n := 0xF0 + n / 0x40000)
      (m := n / 0x1000 % 0x40) (by omega) (by omega) (by omega) (by omega) (by omega)
    simp only [List.cons_append, List.nil_append]
    rw [cut_four _ (by omega) hl (by omega) (by omega)
      (isTail_ofNat (Nat.mod_lt _ (by decide))) (isTail_ofNat (Nat.mod_lt _ (by decide))), ha,
      tailBits_ofNat (Nat.mod_lt _ (by decide)), tailBits_ofNat (Nat.mod_lt _ (by decide)),
      tailBits_ofNat (Nat.mod_lt _ (by decide)), hn, hc]

theorem cut_encode (done : List Piece) (t : Text) (r : Bytes) :
    cut done (encode t ++ r) = cut ((t.map Piece.char).reverse ++ done) r := by
  induction t generalizing done with
  | nil => rfl
  | cons c t ih =>
    have : encode (c :: t) ++ r = encodeChar c ++ (encode t ++ r) := by simp [encode]
    rw [this, cut_encodeChar, ih]
    simp

theorem pieces_encode (t : Text) : pieces (encode t) = t.map Piece.char := by
  have := cut_encode [] t []
  simpa [pieces, cut] using this

/-- A text is read back from its bytes. -/
theorem decode?_encode (t : Text) : decode? (encode t) = some t := by
  rw [decode?, pieces_encode]
  induction t with
  | nil => rfl
  | cons c t ih => simp_all [Piece.char?]

/-- Bytes that spell a text are shown as that text. -/
theorem lossy_encode (t : Text) : lossy (encode t) = t := by
  rw [lossy, pieces_encode, List.map_map]
  exact List.map_id t

end SolidScript.Utf8
