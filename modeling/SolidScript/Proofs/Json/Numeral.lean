import SolidScript.Proofs.Json.Kept
import SolidScript.Proofs.Number.Decimal
import SolidScript.Proofs.Number.Greatest

/-!
# Numerals that documents write

A document writes a finite number as digits with a point, or as digits with an exponent. Either
spelling is cut into its parts by the reader of numerals as long as nothing behind it goes on with a
number (`unsignedNumeral_point`, `unsignedNumeral_exponent`), and the parts make the decimal that
was written.

The number is what is nearest to that decimal. The reader gets there in steps that round each, so it
may find a number beside it (`Binary64.reread`). It always finds one, and the same one wherever the
digits stand (`numberValue_write`). Where it finds the number itself, this is read back
(`Binary64.IsReadBack`).
-/

namespace SolidScript

namespace Json

/-! ## Where a numeral ends -/

/-- The text does not go on with a numeral. -/
def IsNumeralEnd (t : Text) : Prop :=
  ∀ c ∈ t.head?, c.isDigit = false ∧ c ≠ '.' ∧ c ≠ 'e' ∧ c ≠ 'E'

theorem isNumeralEnd_nil : IsNumeralEnd [] := nofun

/-- The text does not go on with digits. -/
def IsDigitsEnd (t : Text) : Prop := ∀ c ∈ t.head?, c.isDigit = false

theorem IsNumeralEnd.isDigitsEnd {t : Text} (h : IsNumeralEnd t) : IsDigitsEnd t :=
  fun c hc => (h c hc).1

theorem isDigitsEnd_cons {c : Char} (h : c.isDigit = false) (t : Text) : IsDigitsEnd (c :: t) := by
  intro d hd
  rw [← Option.some.inj hd, h]

section Digits

variable {ds r : Text} (hds : ∀ c ∈ ds, c.isDigit = true)

include hds

theorem takeDigits_append (hr : IsDigitsEnd r) : takeDigits (ds ++ r) = ds := by
  rw [takeDigits, List.takeWhile_append_of_pos hds]
  cases r with
  | nil => rw [List.takeWhile_nil, List.append_nil]
  | cons c r => rw [List.takeWhile_cons, hr c rfl, if_neg Bool.false_ne_true, List.append_nil]

theorem dropDigits_append (hr : IsDigitsEnd r) : dropDigits (ds ++ r) = r := by
  rw [dropDigits, List.dropWhile_append_of_pos hds]
  cases r with
  | nil => rfl
  | cons c r => rw [List.dropWhile_cons, hr c rfl, if_neg Bool.false_ne_true]

theorem someDigits_append (hne : ds ≠ []) (hr : IsDigitsEnd r) :
    someDigits (ds ++ r) = .ok (ds, r) := by
  obtain ⟨d, es, rfl⟩ := List.exists_cons_of_ne_nil hne
  unfold someDigits
  rw [takeDigits_append hds hr]
  show Except.ok (d :: es, dropDigits (d :: es ++ r)) = _
  rw [dropDigits_append hds hr]

theorem wholeDigits_append (hne : ds ≠ []) (hzero : ds.head? = some '0' → ds.length = 1)
    (hr : IsDigitsEnd r) : wholeDigits (ds ++ r) = .ok (ds, r) := by
  rw [wholeDigits, someDigits_append hds hne hr]
  exact if_neg fun h => h.2 (hzero h.1)

end Digits

/-! ## The parts of a numeral -/

theorem fractionDigits_point {ds r : Text} (hds : ∀ c ∈ ds, c.isDigit = true) (hne : ds ≠ [])
    (hr : IsDigitsEnd r) : fractionDigits ('.' :: ds ++ r) = .ok (ds, r) := by
  rw [List.cons_append, fractionDigits, if_pos rfl, someDigits_append hds hne hr]

theorem fractionDigits_none {r : Text} (hr : ∀ c ∈ r.head?, c ≠ '.') :
    fractionDigits r = .ok ([], r) := by
  cases r with
  | nil => rfl
  | cons c r => rw [fractionDigits, if_neg (hr c rfl)]

theorem exponentPart_none {r : Text} (hr : IsNumeralEnd r) : exponentPart r = .ok (none, r) := by
  cases r with
  | nil => rfl
  | cons c r =>
    obtain ⟨-, -, he, hE⟩ := hr c rfl
    rw [exponentPart, if_neg (not_or.mpr ⟨he, hE⟩)]

theorem exponentPart_signed (e : Int) {r : Text} (hr : IsDigitsEnd r) :
    exponentPart ('e' :: (if e < 0 then '-' else '+') :: digits e.natAbs ++ r)
      = .ok (some e, r) := by
  have hdigits := someDigits_append (fun _ => isDigit_of_mem_digits) (digits_ne_nil e.natAbs) hr
  rw [List.cons_append, exponentPart, if_pos (Or.inl rfl), List.cons_append, signedExponent]
  by_cases he : e < 0
  · simp only [if_pos he, or_true, if_true, hdigits, ofDigits_digits]
    rw [show -(e.natAbs : Int) = e by omega]
  · simp only [if_neg he, true_or, if_true, hdigits, ofDigits_digits]
    rw [if_neg (by decide), show (e.natAbs : Int) = e by omega]

section Unsigned

variable (negative : Bool) {whole fraction r : Text} (hwhole : ∀ c ∈ whole, c.isDigit = true)
  (hne : whole ≠ []) (hzero : whole.head? = some '0' → whole.length = 1)
  (hfraction : ∀ c ∈ fraction, c.isDigit = true) (hr : IsNumeralEnd r)

include hwhole hne hzero hfraction hr

/-- Digits with a point. -/
theorem unsignedNumeral_point (hne' : fraction ≠ []) :
    unsignedNumeral negative (whole ++ ('.' :: fraction ++ r))
      = .ok (⟨negative, whole, fraction, 0, false⟩, r) := by
  have hstart : wholeDigits (whole ++ ('.' :: fraction ++ r)) = .ok (whole, '.' :: fraction ++ r) :=
    wholeDigits_append hwhole hne hzero (isDigitsEnd_cons rfl _)
  rw [unsignedNumeral, hstart]
  simp only [fractionDigits_point hfraction hne' hr.isDigitsEnd, exponentPart_none hr]
  simp [hne']

/-- Digits with an exponent, and with a point or without one. -/
theorem unsignedNumeral_exponent (e : Int) :
    unsignedNumeral negative (whole ++ ((if fraction = [] then [] else '.' :: fraction)
        ++ ('e' :: (if e < 0 then '-' else '+') :: digits e.natAbs ++ r)))
      = .ok (⟨negative, whole, fraction, e, false⟩, r) := by
  have hexponent := exponentPart_signed e hr.isDigitsEnd
  generalize htail : 'e' :: (if e < 0 then '-' else '+') :: digits e.natAbs ++ r = tail at hexponent
  have hend : ∀ c ∈ tail.head?, c.isDigit = false ∧ c ≠ '.' := by
    rw [← htail]
    rintro c ⟨⟩
    exact ⟨rfl, by decide⟩
  have hmiddle : fractionDigits ((if fraction = [] then [] else '.' :: fraction) ++ tail)
      = .ok (fraction, tail) := by
    split
    next hnil => rw [hnil, List.nil_append, fractionDigits_none fun c hc => (hend c hc).2]
    next hne' => exact fractionDigits_point hfraction hne' fun c hc => (hend c hc).1
  have hstart : IsDigitsEnd ((if fraction = [] then [] else '.' :: fraction) ++ tail) := by
    split
    next => exact fun c hc => (hend c hc).1
    next => exact isDigitsEnd_cons rfl _
  rw [unsignedNumeral, wholeDigits_append hwhole hne hzero hstart]
  simp only [hmiddle, hexponent]
  simp

end Unsigned

/-! ## What a document writes -/

/-- The text is read as a numeral of these parts, wherever a numeral may end. -/
def Spells (t : Text) (p : Parts) : Prop :=
  ∀ (negative : Bool) (r : Text), IsNumeralEnd r → unsignedNumeral negative (t ++ r)
    = .ok (⟨negative, p.whole, p.fraction, p.exponent, false⟩, r)

/-- The parts round as the decimal does, and 64 bits hold what stands in front of the point. -/
structure Parts.StandFor (p : Parts) (d : Decimal) : Prop where
  whole_lt : ofDigits p.whole < 2 ^ 64
  round_eq : ∀ negative, p.decimal.round negative = d.round negative

theorem isDigit_of_mem_zeros {n : Nat} {c : Char} (h : c ∈ Style.zeros n) : c.isDigit = true := by
  rw [(List.mem_replicate.mp h).2]
  rfl

theorem isDigit_of_mem_append {ds es : Text} (hds : ∀ c ∈ ds, c.isDigit = true)
    (hes : ∀ c ∈ es, c.isDigit = true) : ∀ c ∈ ds ++ es, c.isDigit = true := by
  intro c hc
  rcases List.mem_append.mp hc with hc | hc
  · exact hds c hc
  · exact hes c hc

/-- Sixteen digits fit into 64 bits. -/
theorem ofDigits_lt_of_length_le {ds : Text} (hds : ∀ c ∈ ds, c.isDigit = true)
    (hlength : ds.length ≤ 16) : ofDigits ds < 2 ^ 64 :=
  calc ofDigits ds < 10 ^ ds.length := ofDigits_lt_pow hds
    _ ≤ 10 ^ 16 := Nat.pow_le_pow_right (by decide) hlength
    _ ≤ 2 ^ 64 := by decide

theorem standFor_of_eq {whole fraction : Text} {e : Int} {d : Decimal}
    (hwhole : ofDigits whole < 2 ^ 64) (hcoefficient : ofDigits (whole ++ fraction) = d.coefficient)
    (hexponent : e - fraction.length = d.exponent) :
    (⟨whole, fraction, e⟩ : Parts).StandFor d := by
  refine ⟨hwhole, fun negative => ?_⟩
  rw [Parts.decimal, hcoefficient, hexponent]

section LayOut

variable {d : Decimal} {ds : Text} {e : Int} (hds : ∀ c ∈ ds, c.isDigit = true) (hne : ds ≠ [])
  (hhead : ds.head? ≠ some '0') (hvalue : ofDigits ds = d.coefficient)
  (he : e = d.exponent + ds.length - 1)

include hds hne hvalue he

/-- The point stands in front of the digits. -/
theorem spells_pointBefore (hneg : e < 0) :
    ∃ p, Spells ('0' :: '.' :: Style.zeros (-e - 1).toNat ++ ds) p ∧ p.StandFor d := by
  have hzero : ∀ c ∈ ['0'], c.isDigit = true := by simp
  have hfraction := isDigit_of_mem_append (fun _ => isDigit_of_mem_zeros (n := (-e - 1).toNat)) hds
  refine ⟨⟨['0'], Style.zeros (-e - 1).toNat ++ ds, 0⟩, fun negative r hr => ?_,
    standFor_of_eq (by decide) ?_ ?_⟩
  · exact unsignedNumeral_point negative hzero (by simp) (by simp) hfraction hr (by simp [hne])
  · rw [ofDigits_append, ofDigits_append, Style.zeros, ofDigits_replicate_zero, hvalue]
    simp [ofDigits, digitValue]
  · simp only [Style.zeros, List.length_append, List.length_replicate]
    omega

/-- The point stands behind the first digit, if there are others. -/
theorem spells_scientific : ∃ p, Spells (Style.scientific ds e) p ∧ p.StandFor d := by
  have hlength : 0 < ds.length := List.length_pos_iff.mpr hne
  have htake : ∀ c ∈ ds.take 1, c.isDigit = true := fun c h => hds c (List.mem_of_mem_take h)
  have hdrop : ∀ c ∈ ds.drop 1, c.isDigit = true := fun c h => hds c (List.mem_of_mem_drop h)
  have hone : (ds.take 1).length = 1 := by rw [List.length_take]; omega
  refine ⟨⟨ds.take 1, ds.drop 1, e⟩, fun negative r hr => ?_,
    standFor_of_eq (ofDigits_lt_of_length_le htake (by omega)) ?_ ?_⟩
  · have hread := unsignedNumeral_exponent negative htake (by simp [hne]) (fun _ => hone) hdrop hr e
    have hpoint : (if ds.length ≤ 1 then [] else '.' :: ds.drop 1)
        = if ds.drop 1 = [] then [] else '.' :: ds.drop 1 := by
      simp only [List.drop_eq_nil_iff]
    rw [Style.scientific, hpoint, List.append_assoc, List.append_assoc]
    exact hread
  · rw [List.take_append_drop, hvalue]
  · simp only [List.length_drop]
    omega

variable (hlow : e ≤ 15)

include hhead hlow

/-- The point stands behind the digits, and behind zeros that fill up the places. -/
theorem spells_pointBehind (hneg : ¬e < 0) (hlong : ds.length ≤ e.toNat + 1) :
    ∃ p, Spells (ds ++ Style.zeros (e.toNat + 1 - ds.length) ++ ['.', '0']) p ∧ p.StandFor d := by
  have hwhole := isDigit_of_mem_append hds
    (fun _ => isDigit_of_mem_zeros (n := e.toNat + 1 - ds.length))
  have hzero : ∀ c ∈ ['0'], c.isDigit = true := by simp
  have hhead' : (ds ++ Style.zeros (e.toNat + 1 - ds.length)).head? ≠ some '0' := by
    rwa [List.head?_append, List.head?_eq_some_head hne, Option.some_or,
      ← List.head?_eq_some_head hne]
  have hlength : (ds ++ Style.zeros (e.toNat + 1 - ds.length)).length ≤ 16 := by
    rw [List.length_append, Style.zeros, List.length_replicate]
    omega
  have hlt := ofDigits_lt_of_length_le hwhole hlength
  refine ⟨⟨ds ++ Style.zeros (e.toNat + 1 - ds.length), ['0'], 0⟩, fun negative r hr => ?_,
    hlt, fun negative => ?_⟩
  · have hread := unsignedNumeral_point negative hwhole (by simp [hne])
      (fun h => absurd h hhead') hzero hr (by simp)
    simpa using hread
  -- the zeros of the coefficient are the exponent
  have hshift := Decimal.round_shift negative d.coefficient (-1) (e.toNat + 1 - ds.length + 1)
  have hexponent : (-1 : Int) + (e.toNat + 1 - ds.length + 1 : Nat) = d.exponent := by omega
  rw [hexponent] at hshift
  have hshifted := @standFor_of_eq _ ['0'] 0
    ⟨d.coefficient * 10 ^ (e.toNat + 1 - ds.length + 1), -1⟩ hlt ?_ rfl
  · rw [hshifted.round_eq, hshift]
  · rw [ofDigits_append, ofDigits_append, Style.zeros, ofDigits_replicate_zero, hvalue,
      List.length_replicate, Nat.pow_succ]
    simp [ofDigits, digitValue, Nat.mul_assoc]

/-- The point stands between the digits. -/
theorem spells_pointWithin (hneg : ¬e < 0) (hshort : ¬ds.length ≤ e.toNat + 1) :
    ∃ p, Spells (ds.take (e.toNat + 1) ++ '.' :: ds.drop (e.toNat + 1)) p ∧ p.StandFor d := by
  have htake : ∀ c ∈ ds.take (e.toNat + 1), c.isDigit = true := fun c h =>
    hds c (List.mem_of_mem_take h)
  have hdrop : ∀ c ∈ ds.drop (e.toNat + 1), c.isDigit = true := fun c h =>
    hds c (List.mem_of_mem_drop h)
  have hhead' : (ds.take (e.toNat + 1)).head? ≠ some '0' := by
    rwa [List.head?_take, if_neg (Nat.succ_ne_zero _)]
  have hlength : (ds.take (e.toNat + 1)).length ≤ 16 := by
    rw [List.length_take]
    omega
  refine ⟨⟨ds.take (e.toNat + 1), ds.drop (e.toNat + 1), 0⟩, fun negative r hr => ?_,
    standFor_of_eq (ofDigits_lt_of_length_le htake hlength) ?_ ?_⟩
  · have hread := unsignedNumeral_point negative htake (by simp [hne])
      (fun h => absurd h hhead') hdrop hr (by simp; omega)
    rwa [← List.append_assoc] at hread
  · rw [List.take_append_drop, hvalue]
  · simp only [List.length_drop]
    omega

end LayOut

theorem spells_layOut {d : Decimal} (hc : d.coefficient ≠ 0) :
    ∃ p, Spells (Style.document.layOut d) p ∧ p.StandFor d := by
  have hds : ∀ c ∈ digits d.coefficient, c.isDigit = true := fun _ => isDigit_of_mem_digits
  have hne := digits_ne_nil d.coefficient
  have hhead := head?_digits_ne_zero hc
  have hvalue := ofDigits_digits d.coefficient
  rw [Style.layOut]
  split
  next hplace =>
    simp only [Style.document, Bool.and_eq_true, decide_eq_true_eq] at hplace
    rw [Style.place]
    split
    next hneg => exact spells_pointBefore hds hne hvalue rfl hneg
    split
    next hneg hlong => exact spells_pointBehind hds hne hhead hvalue rfl hplace.2 hneg hlong
    next hneg hshort => exact spells_pointWithin hds hne hhead hvalue rfl hplace.2 hneg hshort
  next => exact spells_scientific hds hne hvalue rfl

/-- The magnitude of a finite number is spelled by parts that it is nearest to. -/
theorem exists_spells_magnitude {x : Binary64} (h : x.isFinite = true) :
    ∃ p, Spells (Style.document.magnitude x) p ∧ ofDigits p.whole < 2 ^ 64
      ∧ p.decimal.round x.isNegative = x := by
  rw [Style.magnitude]
  split
  next hzero =>
    have hdigit : ∀ c ∈ ['0'], c.isDigit = true := by simp
    refine ⟨⟨['0'], ['0'], 0⟩, fun negative r hr => ?_, by decide, ?_⟩
    · exact unsignedNumeral_point negative hdigit (by simp) (by simp) hdigit hr (by simp)
    · exact Binary64.withSign_of_isZero hzero
  next hzero =>
    have hzero : x.isZero = false := by simpa using hzero
    obtain ⟨p, hspells, hstands⟩ :=
      spells_layOut (Binary64.coefficient_stripped_ne_zero .toEven h hzero)
    exact ⟨p, hspells, hstands.whole_lt,
      (hstands.round_eq x.isNegative).trans (Binary64.round_stripped .toEven h)⟩

/-- No sign stands at the start of a magnitude. -/
theorem numeral_of_spells {t : Text} {p : Parts} (ht : Spells t p) {r : Text}
    (hr : IsNumeralEnd r) : numeral (t ++ r) = unsignedNumeral false (t ++ r) := by
  have hread := ht false r hr
  cases htr : t ++ r with
  | nil =>
    rw [htr] at hread
    cases hread
  | cons c u =>
    rw [numeral, if_neg]
    -- a magnitude that started with a sign would not be read
    rintro rfl
    rw [htr] at hread
    cases hread

theorem write_of_isFinite (style : Style) {x : Binary64} (h : x.isFinite = true) :
    style.write x = if x.isNegative then '-' :: style.magnitude x else style.magnitude x := by
  simp [Style.write, Binary64.isNaN_eq_false h, Binary64.isInfinite_eq_false h]

/-- What is written for a finite number is a numeral that the number is nearest to. -/
theorem exists_numeral_write {x : Binary64} (h : x.isFinite = true) :
    ∃ n : Numeral, (∀ r, IsNumeralEnd r → numeral (Style.document.write x ++ r) = .ok (n, r))
      ∧ ofDigits n.whole < 2 ^ 64
      ∧ x.IsNearest n.negative n.parts.decimal.num n.parts.decimal.den := by
  -- the sign is read apart from the magnitude
  obtain ⟨p, hspells, hwhole, hround⟩ := exists_spells_magnitude h
  refine ⟨⟨x.isNegative, p.whole, p.fraction, p.exponent, false⟩, fun r hr => ?_, hwhole,
    Binary64.isNearest_of_round_eq h hround⟩
  have hread := hspells x.isNegative r hr
  rw [write_of_isFinite Style.document h]
  cases hx : x.isNegative with
  | false =>
    rw [hx] at hread
    rw [if_neg Bool.false_ne_true, numeral_of_spells hspells hr, hread]
  | true =>
    rw [hx] at hread
    rw [if_pos rfl, List.cons_append, numeral, if_pos rfl, hread]

/-! ## What is read again -/

open Binary64 in
/-- The two greatest magnitudes are read as numbers too. -/
theorem exists_numberValue_of_great {x : Binary64} (h : x.isFinite = true)
    (hx : infinityWord < x.word % 2 ^ 63 + 3) :
    ∃ y r, numberValue (Style.document.write x) = .ok (y, r) := by
  obtain ⟨p, hp, hword⟩ : ∃ p ∈ greatest, x.word % 2 ^ 63 = p.1 := by
    have hlt := (isFinite_iff x).mp h
    have hlast : x.word % 2 ^ 63 = infinityWord - 1 ∨ x.word % 2 ^ 63 = infinityWord - 2 := by omega
    simpa [greatest] using hlast
  have hread : ∀ p ∈ greatest, p.1 ≠ 0 ∧ ∀ negative : Bool,
      let d : Decimal := ⟨p.2, 292⟩
      let body := Style.document.layOut (d.stripZeros (Decimal.length d.coefficient))
      (numberValue (if negative then '-' :: body else body)).toOption.isSome = true := by
    decide +kernel
  obtain ⟨hpos, hsome⟩ := hread p hp
  have hzero : x.isZero ≠ true := by
    rw [← hword] at hpos
    simpa [isZero] using hpos
  have hshortest : x.shortest Style.document.tie = ⟨p.2, 292⟩ := shortest_of_mem_greatest hp hword
  have hread := hsome x.isNegative
  rw [write_of_isFinite Style.document h, Style.magnitude, if_neg hzero, hshortest]
  dsimp only at hread ⊢
  generalize numberValue _ = result at hread ⊢
  cases result with
  | ok value => exact ⟨value.1, value.2, rfl⟩
  | error e => cases hread

theorem exists_numberValue_write {x : Binary64} (h : x.isFinite = true) :
    ∃ y, ∀ r, IsNumeralEnd r → numberValue (Style.document.write x ++ r) = .ok (y, r) := by
  obtain ⟨n, hread, hwhole, hnearest⟩ := exists_numeral_write h
  have hvalue : ∃ y, n.value? = some y := by
    by_cases hx : x.word % 2 ^ 63 + 3 ≤ Binary64.infinityWord
    · exact exists_value?_of_isNearest hwhole hnearest hx
    · obtain ⟨y, r, hy⟩ := exists_numberValue_of_great h (Nat.lt_of_not_le hx)
      have hall := hread [] isNumeralEnd_nil
      rw [List.append_nil] at hall
      rw [numberValue, hall] at hy
      cases hn : n.value? with
      | some z => exact ⟨z, rfl⟩
      | none =>
        simp only [hn] at hy
        cases hy
  obtain ⟨y, hy⟩ := hvalue
  refine ⟨y, fun r hr => ?_⟩
  rw [numberValue, hread r hr]
  simp only [hy]

end Json

namespace Binary64

/-- The number that is read from what a document writes for a finite number. -/
def reread (x : Binary64) : Binary64 :=
  match Json.numberValue (Style.document.write x) with
  | .ok (y, _) => y
  | .error _ => x

/-- A finite number is read from what a document writes for it. -/
def IsReadBack (x : Binary64) : Prop :=
  x.isFinite = true → Json.numberValue (Style.document.write x) = .ok (x, [])

instance : DecidablePred IsReadBack := fun x =>
  inferInstanceAs (Decidable (x.isFinite = true → _))

end Binary64

namespace Json

/-- **What is written for a finite number is read**, and it is the same number wherever it
stands. -/
theorem numberValue_write {x : Binary64} (h : x.isFinite = true) {r : Text} (hr : IsNumeralEnd r) :
    numberValue (Style.document.write x ++ r) = .ok (x.reread, r) := by
  obtain ⟨y, hy⟩ := exists_numberValue_write h
  have hall := hy [] isNumeralEnd_nil
  rw [List.append_nil] at hall
  rw [hy r hr, Binary64.reread, hall]

end Json

namespace Binary64

/-- The numbers that are read back are those that reading again leaves alone. -/
theorem isReadBack_iff {x : Binary64} : x.IsReadBack ↔ (x.isFinite = true → x.reread = x) := by
  refine forall_congr' fun h => ?_
  have hread := Json.numberValue_write h Json.isNumeralEnd_nil
  rw [List.append_nil] at hread
  simp [hread]

end Binary64

end SolidScript
