import EvalReport.Arithmetic
import EvalReport.Proofs.ScoreOrder
import Mathlib.Data.EReal.Inv
import Mathlib.Analysis.Real.Sqrt

/-! Carriers in which metrics are computed without rounding: the fractions, and the reals with
both infinities, among which every double but a NaN has its place. -/
namespace EvalReport.Arithmetic

/- Infinite scores and most square roots are no fractions. What stands for them is left open:
what holds in the fractions holds for every choice. -/
class Fractions where
  ofScore : Score → ℚ
  sqrt : ℚ → ℚ

instance Fractions.finite : Fractions where
  ofScore s := match s.binary with
    | .finite negative significand exponent _ =>
      (if negative then -1 else 1) * (significand * (2 : ℚ) ^ exponent)
    | _ => 0
  sqrt x := Nat.sqrt x.num.toNat / Nat.sqrt x.den

instance [Fractions] : Arithmetic ℚ where
  ofCount n := n
  ofScore := Fractions.ofScore
  sqrt := Fractions.sqrt
  isZero x := x = 0
  below x y := x < y

noncomputable instance : Arithmetic EReal where
  ofCount n := n
  ofScore := Score.value
  sqrt x := if x = ⊤ then ⊤ else (Real.sqrt x.toReal : ℝ)
  isZero x := x = 0
  below x y := x < y

/- The only count that is zero is zero: a division by a count fails for no other. -/
def CountsApart (α : Type) [Arithmetic α] : Prop :=
  ∀ n, isZero (ofCount n : α) = true ↔ n = 0

theorem shareQuotient {α : Type} [Arithmetic α] (apart : CountsApart α) (part : Nat) {whole : Nat}
    (some : 0 < whole) : (share part whole : α) = ofCount part / ofCount whole :=
  if_neg (mt (apart whole).mp some.ne')

theorem shareNothing {α : Type} [Arithmetic α] (apart : CountsApart α) (part : Nat) :
    (share part 0 : α) = ofCount 0 :=
  if_pos ((apart 0).mpr rfl)

theorem countsFractions [Fractions] : CountsApart ℚ := by
  intro n
  simp [isZero, ofCount]

theorem shareFraction [Fractions] (part whole : Nat) : (share part whole : ℚ) = part / whole := by
  simp only [share, ratio, isZero, zero, ofCount, decide_eq_true_eq]
  split
  · rename_i none
    simp [none]
  · rfl

theorem shareExtended (part whole : Nat) :
    (share part whole : EReal) = (((part / whole : ℚ) : ℝ) : EReal) := by
  simp only [share, ratio, isZero, zero, ofCount, decide_eq_true_eq]
  split
  · rename_i none
    have empty : whole = 0 := EReal.natCast_eq_iff.mp (none.trans Nat.cast_zero.symm)
    simp [empty]
  · rw [Rat.cast_div, Rat.cast_natCast, Rat.cast_natCast, EReal.coe_div, EReal.coe_natCast,
      EReal.coe_natCast]

theorem extendedMono {part more : Nat} (ordered : part ≤ more) (whole : Nat) :
    (((part / whole : ℚ) : ℝ) : EReal) ≤ (((more / whole : ℚ) : ℝ) : EReal) := by
  rw [EReal.coe_le_coe_iff, Rat.cast_le]
  exact div_le_div_of_nonneg_right (Nat.cast_le.mpr ordered) (Nat.cast_nonneg _)

end EvalReport.Arithmetic
