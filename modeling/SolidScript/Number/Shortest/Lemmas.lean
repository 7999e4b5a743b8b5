import SolidScript.Number.Decimal.Lemmas
import SolidScript.Number.Shortest

/-!
# Shortest decimals, their law

What is found for a finite value reads back as that value (`readsBack_shortest`).
-/

namespace SolidScript.Binary64

theorem unitsPerOne_mul_fives : unitsPerOne * fives = 10 ^ (-(-1074 : Int)).toNat := by
  decide +kernel

/-- The value itself reads back. -/
theorem readsBack_exact {x : Binary64} (h : x.isFinite = true) : x.readsBack x.exact = true := by
  have hden : x.exact.den = unitsPerOne * fives := unitsPerOne_mul_fives.symm
  have hnum : x.exact.num = x.units * fives := Nat.mul_one _
  rw [readsBack, decide_eq_true_eq, Decimal.round_eq_ofRatio, hnum, hden]
  exact ofRatio_units h (by decide +kernel)

theorem readsBack_shortest (tie : Tie) {x : Binary64} (h : x.isFinite = true) :
    x.readsBack (x.shortest tie) = true := by
  simp only [shortest]
  cases hs : (List.range 17).findSome? fun n => onGrid? tie x (scale x.units - (n + 1 : Nat)) with
  | none => exact readsBack_exact h
  | some d =>
    obtain ⟨n, -, hn⟩ := List.exists_of_findSome?_eq_some hs
    exact readsBack_of_onGrid? hn

end SolidScript.Binary64
