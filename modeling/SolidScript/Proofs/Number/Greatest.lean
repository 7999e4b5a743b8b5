import SolidScript.Number.Style
import SolidScript.Proofs.Number.Nearest

/-!
# The digits of the greatest values

The two greatest magnitudes have seventeen digits each (`shortest_of_mem_greatest`). A decimal that
reads back lies between the middles around the magnitude (`isBetween_of_readsBack`), and on the
coarser grids neither neighbour does (`onGrid?_eq_none`). So nothing has to be rounded there.
-/

namespace SolidScript.Binary64

variable {x : Binary64} {m : Nat} {d : Decimal} {tie : Tie} {e : Int}

/-- The decimal lies between the middles around the magnitude behind `m`. -/
def IsBetween (m : Nat) (d : Decimal) : Prop :=
  middleUnits m * d.den ≤ 2 * (d.num * unitsPerOne)
    ∧ 2 * (d.num * unitsPerOne) ≤ middleUnits (m + 1) * d.den

instance : Decidable (IsBetween m d) := inferInstanceAs (Decidable (_ ∧ _))

theorem isNearest_of_round_eq (hx : x.isFinite = true) (h : d.round x.isNegative = x) :
    x.IsNearest x.isNegative d.num d.den := by
  rw [Decimal.round_eq_ofRatio] at h
  exact (ofRatio_eq_iff (Nat.pow_pos (by decide))).mp ⟨h, isInfinite_eq_false hx⟩

theorem isBetween_of_readsBack (hx : x.isFinite = true) (hm : x.word % 2 ^ 63 = m + 1)
    (h : x.readsBack d = true) : IsBetween m d := by
  have hden : 0 < d.den := Nat.pow_pos (by decide)
  rw [readsBack, decide_eq_true_eq] at h
  have hnearest := (isNearest_of_round_eq hx h).nearest
  rw [hm] at hnearest
  refine ⟨Nat.le_of_not_lt fun hlt => ?_, hnearest.le_middle hden⟩
  have hle := hnearest.le_of_lt_middle hden hlt
  omega

/-! ## Grids -/

/-- How many times a power of ten goes into a number of units. -/
def below (units : Nat) (e : Int) : Nat :=
  units * Nat.pow 10 (-e).toNat / (unitsPerOne * Nat.pow 10 e.toNat)

theorem eq_neighbour_of_onGrid? (h : onGrid? tie x e = some d) :
    d = ⟨below x.units e, e⟩ ∨ d = ⟨below x.units e + 1, e⟩ := by
  have hmem := List.mem_of_find?_eq_some h
  rw [List.mem_cons, List.mem_cons, List.mem_singleton] at hmem
  rcases hmem with hnearer | hd | hd
  · -- the nearer one is one of the two
    rw [hnearer]
    split
    · exact Or.inl rfl
    · exact Or.inr rfl
    · exact Or.inr rfl
    · split
      · exact Or.inl rfl
      · exact Or.inr rfl
  · exact Or.inl hd
  · exact Or.inr hd

/-- Nothing on the grid reads back where neither neighbour lies between the middles. -/
theorem onGrid?_eq_none (hx : x.isFinite = true) (hm : x.word % 2 ^ 63 = m + 1)
    (hbelow : ¬IsBetween m ⟨below x.units e, e⟩) (habove : ¬IsBetween m ⟨below x.units e + 1, e⟩) :
    onGrid? tie x e = none := by
  cases hgrid : onGrid? tie x e with
  | none => rfl
  | some d =>
    have hbetween := isBetween_of_readsBack hx hm (readsBack_of_onGrid? hgrid)
    rcases eq_neighbour_of_onGrid? hgrid with rfl | rfl
    · exact absurd hbetween hbelow
    · exact absurd hbetween habove

/-- What reads back on the grid of seventeen digits is the shortest decimal if nothing reads back on
the coarser ones. -/
theorem shortest_eq_of_last
    (hcoarse : ∀ n < 16, onGrid? tie x (scale x.units - (n + 1 : Nat)) = none)
    (hlast : onGrid? tie x (scale x.units - (16 + 1 : Nat)) = some d) : x.shortest tie = d := by
  have hfront : (List.range 16).findSome? (fun n => onGrid? tie x (scale x.units - (n + 1 : Nat)))
      = none := by
    rw [List.findSome?_eq_none_iff]
    exact fun n hn => hcoarse n (List.mem_range.mp hn)
  rw [shortest, List.range_succ, List.findSome?_append, hfront, List.findSome?_singleton]
  simp only [hlast]
  rfl

/-! ## The greatest magnitudes -/

/-- The two greatest magnitudes, with the digits that they need. -/
def greatest : List (Nat × Nat) :=
  [(infinityWord - 1, 17976931348623157), (infinityWord - 2, 17976931348623155)]

theorem shortest_of_mem_greatest {p : Nat × Nat} (hp : p ∈ greatest)
    (hx : x.word % 2 ^ 63 = p.1) : x.shortest .toEven = ⟨p.2, 292⟩ := by
  have hplace : ∀ p ∈ greatest,
      p.1 = p.1 - 1 + 1 ∧ p.1 < infinityWord ∧ scale (magnitudeUnits p.1) = 309 := by
    decide +kernel
  have hcoarse : ∀ p ∈ greatest, ∀ n < 16, ∀ c < 2, ¬IsBetween (p.1 - 1)
      ⟨below (magnitudeUnits p.1) (309 - (n + 1 : Nat)) + c, 309 - (n + 1 : Nat)⟩ := by
    decide +kernel
  have hlast : ∀ p ∈ greatest, ∀ negative,
      onGrid? .toEven (withSign negative p.1) 292 = some ⟨p.2, 292⟩ := by
    decide +kernel
  obtain ⟨hpred, hlt, hscale⟩ := hplace p hp
  have hfinite : x.isFinite = true := by rwa [isFinite_iff, hx]
  have hunits : x.units = magnitudeUnits p.1 := by rw [units_eq_magnitudeUnits, hx]
  rw [← hunits] at hscale
  apply shortest_eq_of_last
  · intro n hn
    have hbetween := hcoarse p hp n hn
    rw [← hunits] at hbetween
    rw [hscale]
    exact onGrid?_eq_none hfinite (hx.trans hpred) (hbetween 0 (by decide)) (hbetween 1 (by decide))
  · have hgrid := hlast p hp x.isNegative
    rw [← hx, withSign_magnitude] at hgrid
    rw [hscale]
    exact hgrid

end SolidScript.Binary64
