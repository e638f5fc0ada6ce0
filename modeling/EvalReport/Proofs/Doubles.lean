import EvalReport.Proofs.Exact
import Mathlib

/-! Shares in double precision. The two counts and their quotient are each rounded to the nearest
double, ties to even. Rounding keeps the order of numbers, so a share only grows with its part. -/
namespace EvalReport

open Float.Model Float.Model.UnpackedFloat

namespace Double

/-! ### Rounding to a whole number -/

/- What a mantissa and the bits cut off behind it tell of the number they came from. -/
def Within (x : ℚ) (m : Nat) : Accuracy → Prop
  | .exact => x = m
  | .inexact .lt => m < x ∧ x < m + 1 / 2
  | .inexact .eq => x = m + 1 / 2
  | .inexact .gt => m + 1 / 2 < x ∧ x < m + 1

structure Nearest (x : ℚ) (n : Nat) : Prop where
  above : (n : ℚ) ≤ x + 1 / 2
  below : x ≤ n + 1 / 2
  even : n = x + 1 / 2 ∨ x = n + 1 / 2 → n % 2 = 0

theorem nearestInside {x : ℚ} {n : Nat} (above : (n : ℚ) < x + 1 / 2) (below : x < n + 1 / 2) :
    Nearest x n :=
  ⟨above.le, below.le, fun tie => absurd tie (not_or.mpr ⟨above.ne, below.ne⟩)⟩

theorem nearestSelf (n : Nat) : Nearest n n :=
  nearestInside (by linarith) (by linarith)

theorem nearestMonotone {x y : ℚ} {m n : Nat} (first : Nearest x m) (second : Nearest y n)
    (order : x ≤ y) : m ≤ n := by
  by_contra above
  have next : (n : ℚ) + 1 ≤ m := by exact_mod_cast not_le.mp above
  -- both numbers lie halfway between neighbours, and no two neighbours are even
  have tied : x = n + 1 / 2 ∧ y = n + 1 / 2 ∧ (m : ℚ) = n + 1 := by
    have := first.above
    have := second.below
    refine ⟨?_, ?_, ?_⟩ <;> linarith
  have neighbours : m = n + 1 := by exact_mod_cast tied.2.2
  have left := first.even (.inl (by rw [tied.1, tied.2.2]; ring))
  have right := second.even (.inr tied.2.1)
  omega

theorem withinSelf (m : Nat) : Within m m .exact := rfl

theorem withinNearest {x : ℚ} {m : Nat} {accuracy : Accuracy} (within : Within x m accuracy) :
    Nearest x (accuracy.roundToNearestEven m) := by
  match accuracy, within with
  | .exact, within =>
    obtain rfl : x = m := within
    exact nearestSelf m
  | .inexact .lt, ⟨low, high⟩ =>
    change Nearest x m
    exact nearestInside (by linarith) high
  | .inexact .gt, ⟨low, high⟩ =>
    change Nearest x (m + 1)
    have next : ((m + 1 : Nat) : ℚ) = m + 1 := Nat.cast_succ m
    exact nearestInside (by linarith) (by linarith)
  | .inexact .eq, within =>
    obtain rfl : x = m + 1 / 2 := within
    change Nearest _ (m + m % 2)
    rcases Nat.mod_two_eq_zero_or_one m with parity | parity
    · rw [parity, add_zero]
      exact ⟨by linarith, le_refl _, fun _ => parity⟩
    · have next : ((m + 1 : Nat) : ℚ) = m + 1 := Nat.cast_succ m
      rw [parity]
      exact ⟨by linarith, by linarith, fun _ => by omega⟩

theorem withinBounds {x : ℚ} {m : Nat} {accuracy : Accuracy} (within : Within x m accuracy) :
    (m : ℚ) ≤ x ∧ x < m + 1 := by
  match accuracy, within with
  | .exact, within =>
    obtain rfl : x = m := within
    exact ⟨le_refl _, by linarith⟩
  | .inexact .lt, ⟨low, high⟩ => exact ⟨low.le, by linarith⟩
  | .inexact .eq, within =>
    obtain rfl : x = m + 1 / 2 := within
    exact ⟨by linarith, by linarith⟩
  | .inexact .gt, ⟨low, high⟩ => exact ⟨by linarith, high⟩

theorem withinHalved {x : ℚ} {em : ExtendedMantissa} (within : Within x em.mantissa em.accuracy) :
    Within (x / 2) em.shiftRightOne.mantissa em.shiftRightOne.accuracy := by
  obtain ⟨m, round, sticky⟩ := em
  change Within (x / 2) (m / 2)
    (ExtendedMantissa.mk (m / 2) (m % 2 != 0) (round || sticky)).accuracy
  have halves : (m : ℚ) = 2 * ((m / 2 : Nat) : ℚ) + ((m % 2 : Nat) : ℚ) := by
    exact_mod_cast (Nat.div_add_mod m 2).symm
  have bits : m % 2 = 0 ∧ (m % 2 != 0) = false ∨ m % 2 = 1 ∧ (m % 2 != 0) = true := by
    rcases Nat.mod_two_eq_zero_or_one m with parity | parity <;> simp [parity]
  -- the bit that falls out becomes the round bit, the old round bit goes to the sticky one
  rcases bits with ⟨parity, bit⟩ | ⟨parity, bit⟩ <;> rw [bit] <;> rw [parity] at halves <;>
    push_cast at halves <;> cases round <;> cases sticky <;>
    simp only [ExtendedMantissa.accuracy, Within, Bool.or_false, Bool.or_true, Bool.or_self]
      at within ⊢
  all_goals
    first
    | linarith
    | constructor <;> linarith

theorem withinShifted {x : ℚ} {em : ExtendedMantissa} (within : Within x em.mantissa em.accuracy)
    (k : Nat) : Within (x / 2 ^ k) (em >>> k).mantissa (em >>> k).accuracy := by
  induction k with
  | zero =>
    rw [pow_zero, div_one]
    exact within
  | succ k ih =>
    rw [pow_succ, ← div_div]
    exact withinHalved ih

theorem cutNearest {x : ℚ} {m : Nat} {accuracy : Accuracy} (within : Within x m accuracy)
    (k : Nat) : Nearest (x / 2 ^ k)
      (ExtendedMantissa.ofMantissaAndAccuracy m accuracy >>> k).roundedMantissa := by
  have start : Within x (ExtendedMantissa.ofMantissaAndAccuracy m accuracy).mantissa
      (ExtendedMantissa.ofMantissaAndAccuracy m accuracy).accuracy := by
    match accuracy, within with
    | .exact, within => exact within
    | .inexact .lt, within => exact within
    | .inexact .eq, within => exact within
    | .inexact .gt, within => exact within
  exact withinNearest (withinShifted start k)

/-! ### Rounding to a double -/

theorem nextExponent {n : Nat} {e d : Int} (less : e < d) (wide : 2 ^ 52 ≤ n) :
    (2 : ℚ) ^ 53 * 2 ^ e ≤ n * 2 ^ d := by
  have units : (2 : ℚ) ^ (e + 1) ≤ 2 ^ d := zpow_le_zpow_right₀ (by norm_num) less
  calc (2 : ℚ) ^ 53 * 2 ^ e = 2 ^ 52 * 2 ^ (e + 1) := by rw [zpow_add₀ (by norm_num)]; ring
    _ ≤ 2 ^ 52 * 2 ^ d := by gcongr
    _ ≤ n * 2 ^ d := by gcongr; exact_mod_cast wide

theorem mantissaBounds {m : Nat} (bits : m.log2 = 52) : 2 ^ 52 ≤ m ∧ m < 2 ^ 53 := by
  refine (Nat.log2_eq_iff ?_).mp bits
  rintro rfl
  simp at bits

/- The nearest multiple of the power of two that leaves 53 bits in front of the point. -/
def Rounds (x v : ℚ) : Prop :=
  ∃ (e : Int) (n : Nat), (2 : ℚ) ^ (52 + e) ≤ x ∧ x < 2 ^ (53 + e) ∧ Nearest (x / 2 ^ e) n ∧
    v = n * 2 ^ e

theorem nearestWide {x : ℚ} {e : Int} {n : Nat} (low : (2 : ℚ) ^ (52 + e) ≤ x)
    (high : x < 2 ^ (53 + e)) (nearest : Nearest (x / 2 ^ e) n) : 2 ^ 52 ≤ n ∧ n ≤ 2 ^ 53 := by
  have unit : (0 : ℚ) < 2 ^ e := by positivity
  rw [zpow_add₀ (by norm_num)] at low high
  constructor
  · refine nearestMonotone (nearestSelf _) nearest ?_
    rw [le_div_iff₀ unit]
    exact_mod_cast low
  · refine nearestMonotone nearest (nearestSelf _) ?_
    rw [div_le_iff₀ unit]
    exact_mod_cast high.le

theorem roundsMonotone {x y v w : ℚ} (first : Rounds x v) (second : Rounds y w) (order : x ≤ y) :
    v ≤ w := by
  obtain ⟨e, m, low, high, nearest, rfl⟩ := first
  obtain ⟨f, n, low', high', nearest', rfl⟩ := second
  have unit : (0 : ℚ) < 2 ^ e := by positivity
  have exponents : 52 + e < 53 + f :=
    (zpow_lt_zpow_iff_right₀ (by norm_num : (1 : ℚ) < 2)).mp ((low.trans order).trans_lt high')
  rcases (show e = f ∨ e < f by omega) with rfl | less
  · have counted : m ≤ n := nearestMonotone nearest nearest' (by gcongr)
    gcongr
  · have wide := (nearestWide low high nearest).2
    calc (m : ℚ) * 2 ^ e ≤ 2 ^ 53 * 2 ^ e := by gcongr; exact_mod_cast wide
      _ ≤ n * 2 ^ f := nextExponent less (nearestWide low' high' nearest').1

theorem roundsPower (k : Int) : Rounds (2 ^ k) (2 ^ k) := by
  refine ⟨k - 52, 2 ^ 52, ?_, ?_, ?_, ?_⟩
  · exact zpow_le_zpow_right₀ (by norm_num) (by omega)
  · exact zpow_lt_zpow_right₀ (by norm_num) (by omega)
  · have exact : (2 : ℚ) ^ k / 2 ^ (k - 52) = (2 ^ 52 : Nat) := by
      rw [← zpow_sub₀ (by norm_num)]
      norm_num
    rw [exact]
    exact nearestSelf _
  · rw [Nat.cast_pow, Nat.cast_ofNat, ← zpow_natCast, ← zpow_add₀ (by norm_num)]
    congr 1
    omega

def Moderate (x : ℚ) : Prop := (2 : ℚ) ^ (-100 : Int) ≤ x ∧ x ≤ 2 ^ (100 : Int)

def Stands (f : Float) (v : ℚ) : Prop :=
  ∃ m e positive, f.toModel.unpack = .finite .positive m e positive ∧ m.log2 = 52 ∧
    v = m * 2 ^ e

section Normal

variable {m biased : Nat} {e : Int} (positive : 0 < m) (bits : m.log2 = 52)
  (shown : (biased : Int) = e + 1075) (high : e ≤ 971)

include bits shown high

theorem normalPacked : UnpackedFloat.pack Format.binary64 (.finite .positive m e positive) =
    packComponents Format.binary64 .positive (BitVec.ofNat 11 biased) (BitVec.ofNat 52 m) := by
  have exponent : (e + (1023 : Nat) + (52 : Nat)).toNat = biased := by omega
  have finite : ¬ 2 ^ 11 ≤ biased + 1 := by omega
  change (if 2 ^ 11 ≤ (e + (1023 : Nat) + (52 : Nat)).toNat + 1 then _ else
    if m.log2 + 1 = 53 then packComponents Format.binary64 .positive
      (BitVec.ofNat 11 (e + (1023 : Nat) + (52 : Nat)).toNat) (BitVec.ofNat 52 m) else _) = _
  rw [exponent, if_neg finite, if_pos (by omega)]

theorem normalUnpacked (low : -1074 ≤ e) : UnpackedFloat.unpack Format.binary64
    (packComponents Format.binary64 .positive (BitVec.ofNat 11 biased) (BitVec.ofNat 52 m)) =
      .finite .positive m e positive := by
  obtain ⟨wide, narrow⟩ := mantissaBounds bits
  have exponentBits : (BitVec.ofNat 11 biased).toNat = biased := by
    rw [BitVec.toNat_ofNat]; omega
  have mantissaBits : (1#1 ++ BitVec.ofNat 52 m).toNat = m := by
    rw [BitVec.toNat_append, ← Nat.shiftLeft_add_eq_or_of_lt (BitVec.isLt _), BitVec.toNat_ofNat,
      Nat.shiftLeft_eq]
    simp
    omega
  have apart : ∀ word : BitVec 11, word.toNat ≠ biased → BitVec.ofNat 11 biased ≠ word := by
    rintro _ other rfl
    exact other exponentBits
  have infinite : BitVec.ofNat 11 biased ≠ -1#11 :=
    apart _ (by change 2047 ≠ biased; omega)
  have subnormal : BitVec.ofNat 11 biased ≠ 0#11 :=
    apart _ (by change 0 ≠ biased; omega)
  rw [UnpackedFloat.unpack]
  simp only [unpackMantissa_packComponents, unpackExponent_packComponents,
    unpackSign_packComponents, infinite, subnormal, if_false, exponentBits, mantissaBits,
    Format.exponentBias]
  congr 1
  omega

end Normal

theorem packedNormal {m : Nat} {e : Int} (positive : 0 < m) (bits : m.log2 = 52)
    (low : -1074 ≤ e) (high : e ≤ 971) :
    (Float.Model.pack (.finite .positive m e positive)).unpack =
      .finite .positive m e positive := by
  obtain ⟨biased, shown⟩ : ∃ biased : Nat, (biased : Int) = e + 1075 :=
    ⟨_, Int.toNat_of_nonneg (by omega)⟩
  change UnpackedFloat.unpack Format.binary64
    (UnpackedFloat.pack Format.binary64 (.finite .positive m e positive)) = _
  rw [normalPacked positive bits shown high]
  exact normalUnpacked positive bits shown high low

theorem packedHuge {m : Nat} {e : Int} (positive : 0 < m) (high : 971 < e) :
    Float.Model.pack (.finite .positive m e positive) = Float.Model.pack (.infinity .positive) := by
  have huge : 2 ^ 11 ≤ (e + (1023 : Nat) + (52 : Nat)).toNat + 1 := by omega
  have packed : UnpackedFloat.pack Format.binary64 (.finite .positive m e positive) =
      UnpackedFloat.pack Format.binary64 (.infinity .positive) := by
    change (if 2 ^ 11 ≤ (e + (1023 : Nat) + (52 : Nat)).toNat + 1 then
      packedInfinity Format.binary64 .positive else _) = _
    exact if_pos huge
  rw [Float.Model.pack, Float.Model.pack]
  simp only [packed]

theorem targetExponentOf (total : Int) :
    Format.binary64.targetExponent total = max (total - 53) (-1074) := rfl

theorem shiftedTo {m k : Nat} {e : Int} (accuracy : Accuracy) (bits : m.log2 = 52 + k)
    (low : -1074 ≤ e + k) : shiftToTargetExponent Format.binary64 m e accuracy =
      (ExtendedMantissa.ofMantissaAndAccuracy m accuracy >>> k, e + k) := by
  have target : Format.binary64.targetExponent (totalExponent m e) = e + k := by
    rw [targetExponentOf, totalExponent, bits]
    omega
  have amount : (e + k - e).toNat = k := by omega
  rw [shiftToTargetExponent, target, shiftToExponent, amount]

/- A mantissa that rounding has made too wide gives its last bit away. -/
theorem settled {n : Nat} {e : Int} (wide : 2 ^ 52 ≤ n) (narrow : n ≤ 2 ^ 53) (low : -1074 ≤ e) :
    ∃ m f, shiftToTargetExponent Format.binary64 n e .exact = (⟨m, false, false⟩, f) ∧
      m.log2 = 52 ∧ e ≤ f ∧ f ≤ e + 1 ∧ (n : ℚ) * 2 ^ e = m * 2 ^ f := by
  rcases narrow.lt_or_eq with kept | rfl
  · have bits : n.log2 = 52 := (Nat.log2_eq_iff (by omega)).mpr ⟨wide, kept⟩
    refine ⟨n, e, ?_, bits, le_refl _, by omega, rfl⟩
    exact (shiftedTo .exact (k := 0) bits (by omega)).trans (by simp; rfl)
  · refine ⟨2 ^ 52, e + 1, ?_, Nat.log2_two_pow, by omega, le_refl _, ?_⟩
    · exact (shiftedTo .exact (k := 1) Nat.log2_two_pow (by omega)).trans rfl
    · rw [zpow_add₀ (by norm_num)]
      push_cast
      ring

theorem scaledBounds {x : ℚ} {m k : Nat} {accuracy : Accuracy} (within : Within x m accuracy)
    (bits : m.log2 = 52 + k) (wide : 2 ^ 52 ≤ m) (e : Int) :
    (2 : ℚ) ^ (52 + (e + k)) ≤ x * 2 ^ e ∧ x * 2 ^ e < (2 : ℚ) ^ (53 + (e + k)) := by
  obtain ⟨least, most⟩ := (Nat.log2_eq_iff (by omega)).mp bits
  obtain ⟨floor, ceiling⟩ := withinBounds within
  constructor
  · have below : ((2 ^ (52 + k) : Nat) : ℚ) ≤ x := le_trans (by exact_mod_cast least) floor
    rw [show (52 : Int) + (e + k) = ((52 + k : Nat) : Int) + e by push_cast; ring,
      zpow_add₀ (by norm_num), zpow_natCast]
    gcongr
    exact_mod_cast below
  · have above : x < ((2 ^ (53 + k) : Nat) : ℚ) :=
      ceiling.trans_le (by rw [show 53 + k = 52 + k + 1 by omega]; exact_mod_cast most)
    rw [show (53 : Int) + (e + k) = ((53 + k : Nat) : Int) + e by push_cast; ring,
      zpow_add₀ (by norm_num), zpow_natCast]
    gcongr
    exact_mod_cast above

theorem wideBits {m : Nat} (wide : 2 ^ 52 ≤ m) : ∃ k, m.log2 = 52 + k :=
  ⟨_, (Nat.add_sub_of_le ((Nat.le_log2 (by omega)).mpr wide)).symm⟩

theorem roundedNormal {x : ℚ} {m k : Nat} {e : Int} {accuracy : Accuracy}
    (within : Within x m accuracy) (bits : m.log2 = 52 + k) (low : -1074 ≤ e + k) :
    ∃ c n f positive, Nearest (x * 2 ^ e / 2 ^ (e + (k : Int))) c ∧
      roundWithAccuracy Format.binary64 .positive m e accuracy = .finite .positive n f positive ∧
      n.log2 = 52 ∧ e + k ≤ f ∧ f ≤ e + k + 1 ∧ (c : ℚ) * 2 ^ (e + (k : Int)) = n * 2 ^ f := by
  have unit : (0 : ℚ) < 2 ^ e := by positivity
  have wide : 2 ^ 52 ≤ m := by
    have some : m ≠ 0 := by
      rintro rfl
      simp at bits
      omega
    exact (Nat.pow_le_pow_right two_pos (by omega)).trans ((Nat.log2_eq_iff some).mp bits).1
  obtain ⟨scaledLow, scaledHigh⟩ := scaledBounds within bits wide e
  -- the bits behind the last place kept only serve to round it
  let cut := ExtendedMantissa.ofMantissaAndAccuracy m accuracy >>> k
  have nearest : Nearest (x * 2 ^ e / 2 ^ (e + (k : Int))) cut.roundedMantissa := by
    rw [zpow_add₀ (by norm_num), zpow_natCast, mul_comm x, mul_div_mul_left _ _ unit.ne']
    exact cutNearest within k
  obtain ⟨full, narrow⟩ := nearestWide scaledLow scaledHigh nearest
  obtain ⟨n, f, final, settledBits, below, above, value⟩ := settled full narrow low
  have positive : 0 < n := lt_of_lt_of_le (by norm_num) (mantissaBounds settledBits).1
  refine ⟨cut.roundedMantissa, n, f, positive, nearest, ?_, settledBits, below, above, value⟩
  unfold roundWithAccuracy
  rw [shiftedTo accuracy bits low]
  dsimp only
  rw [final]
  exact dif_neg positive.ne'

theorem roundedStands {x : ℚ} {m : Nat} {e : Int} {accuracy : Accuracy}
    (within : Within x m accuracy) (wide : 2 ^ 52 ≤ m) (moderate : Moderate (x * 2 ^ e)) :
    ∃ v, Rounds (x * 2 ^ e) v ∧ Stands (.ofModel (Float.Model.pack
      (roundWithAccuracy Format.binary64 .positive m e accuracy))) v := by
  obtain ⟨k, bits⟩ := wideBits wide
  obtain ⟨scaledLow, scaledHigh⟩ := scaledBounds within bits wide e
  have lowExponent : -100 < 53 + (e + k) :=
    (zpow_lt_zpow_iff_right₀ (by norm_num : (1 : ℚ) < 2)).mp (moderate.1.trans_lt scaledHigh)
  have highExponent : 52 + (e + k) ≤ 100 :=
    (zpow_le_zpow_iff_right₀ (by norm_num : (1 : ℚ) < 2)).mp (scaledLow.trans moderate.2)
  obtain ⟨c, n, f, positive, nearest, rounded, settledBits, _, _, value⟩ :=
    roundedNormal within bits (e := e) (by omega)
  refine ⟨c * 2 ^ (e + (k : Int)), ⟨e + k, _, scaledLow, scaledHigh, nearest, rfl⟩, n, f, positive,
    ?_, settledBits, value⟩
  rw [rounded]
  exact packedNormal positive settledBits (by omega) (by omega)

/-! ### Order, quotients and counts -/

theorem standsOrdered {f g : Float} {v w : ℚ} (first : Stands f v) (second : Stands g w)
    (order : v ≤ w) : f ≤ g := by
  obtain ⟨m, e, _, unpacked, bits, rfl⟩ := first
  obtain ⟨n, d, _, unpacked', bits', rfl⟩ := second
  -- the lesser exponent goes with the lesser number, as mantissas are of one length
  have exponents : e ≤ d := by
    by_contra greater
    have above : (n : ℚ) * 2 ^ d < m * 2 ^ e := by
      calc (n : ℚ) * 2 ^ d < 2 ^ 53 * 2 ^ d := by
            gcongr
            exact_mod_cast (mantissaBounds bits').2
        _ ≤ m * 2 ^ e := nextExponent (not_le.mp greater) (mantissaBounds bits).1
    exact absurd order (not_le.mpr above)
  have mantissas : e = d → m ≤ n := by
    rintro rfl
    exact_mod_cast le_of_mul_le_mul_right order (by positivity)
  refine decide_eq_true (p := f.toModel ≤ g.toModel) ?_
  change f.toModel.unpack.le g.toModel.unpack = true
  rw [unpacked, unpacked']
  change ((compare e d).then (compare m n)).isLE = true
  rcases exponents.lt_or_eq with less | rfl
  · rw [compare_lt_iff_lt.mpr less]
    rfl
  · rw [compare_eq_iff_eq.mpr rfl]
    exact Nat.isLE_compare.mpr (mantissas rfl)

theorem quotientWithin (m : Nat) {n : Nat} (positive : 0 < n) :
    Within (m / n : ℚ) (m / n) (accuracyOfFraction (m % n) n) := by
  have divisor : (0 : ℚ) < n := by exact_mod_cast positive
  have quotient : (m : ℚ) / n = ((m / n : Nat) : ℚ) + ((m % n : Nat) : ℚ) / n := by
    rw [eq_comm, ← eq_sub_iff_add_eq', div_eq_iff divisor.ne', sub_mul,
      div_mul_cancel₀ _ divisor.ne', eq_sub_iff_add_eq]
    exact_mod_cast Nat.mod_add_div' m n
  unfold accuracyOfFraction
  split
  · rename_i exact
    change (m : ℚ) / n = ((m / n : Nat) : ℚ)
    rw [quotient, exact]
    simp
  · rename_i inexact
    have above : 0 < ((m % n : Nat) : ℚ) / n :=
      div_pos (by exact_mod_cast Nat.pos_of_ne_zero inexact) divisor
    have below : ((m % n : Nat) : ℚ) / n < 1 :=
      (div_lt_one divisor).mpr (by exact_mod_cast Nat.mod_lt m positive)
    rw [quotient]
    rcases lt_trichotomy (2 * (m % n)) n with less | half | more
    · rw [compare_lt_iff_lt.mpr less]
      have half : ((m % n : Nat) : ℚ) / n < 1 / 2 := by
        rw [div_lt_div_iff₀ divisor two_pos]
        exact_mod_cast (by omega : m % n * 2 < 1 * n)
      constructor <;> linarith
    · rw [compare_eq_iff_eq.mpr half]
      have half : ((m % n : Nat) : ℚ) / n = 1 / 2 := by
        rw [div_eq_div_iff divisor.ne' two_ne_zero]
        exact_mod_cast (by omega : m % n * 2 = 1 * n)
      exact congrArg _ half
    · rw [compare_gt_iff_gt.mpr more]
      have half : 1 / 2 < ((m % n : Nat) : ℚ) / n := by
        rw [div_lt_div_iff₀ two_pos divisor]
        exact_mod_cast (by omega : 1 * n < m % n * 2)
      constructor <;> linarith

theorem quotientScaled (m n : Nat) (e d : Int) : (m : ℚ) * (2 : ℚ) ^ e / (n * (2 : ℚ) ^ d) =
    ((m * 2 ^ 53 : Nat) : ℚ) / n * (2 : ℚ) ^ (e - d - 53) := by
  have split : (2 : ℚ) ^ e / 2 ^ d = 2 ^ 53 * 2 ^ (e - d - 53) := by
    rw [← zpow_sub₀ (by norm_num), ← zpow_natCast, ← zpow_add₀ (by norm_num)]
    congr 1
    omega
  rw [mul_div_mul_comm, split]
  push_cast
  ring

/- The mantissas are divided with enough places to spare to fill one again. -/
theorem quotientCore {m n : Nat} {e d : Int} (bits : m.log2 = 52) (bits' : n.log2 = 52)
    (low : -1021 ≤ e - d) : ∃ q accuracy x,
      divCore Format.binary64 m e n d = (q, e - d - 53, accuracy) ∧ Within x q accuracy ∧
        2 ^ 52 ≤ q ∧ (m : ℚ) * 2 ^ e / (n * 2 ^ d) = x * 2 ^ (e - d - 53) := by
  have target : min (e - d) (Format.binary64.targetExponent
      (totalExponent m e - totalExponent n d)) = e - d - 53 := by
    rw [targetExponentOf, totalExponent, totalExponent, bits, bits']
    omega
  have amount : (e - d - (e - d - 53)).toNat = 53 := by omega
  have least := (mantissaBounds bits).1
  have most := (mantissaBounds bits').2
  have positive : 0 < n := lt_of_lt_of_le (by norm_num) (mantissaBounds bits').1
  obtain ⟨k, shifted, wide⟩ : ∃ k, m <<< 53 = k ∧ k = m * 2 ^ 53 := ⟨_, rfl, Nat.shiftLeft_eq m 53⟩
  refine ⟨k / n, accuracyOfFraction (k % n) n, k / n, ?_, quotientWithin k positive, ?_, ?_⟩
  · rw [divCore, target, amount, shifted]
  · rw [Nat.le_div_iff_mul_le positive]
    omega
  · rw [wide]
    exact quotientScaled m n e d

theorem quotientStands {f g : Float} {v w : ℚ} (first : Stands f v) (second : Stands g w)
    (moderate : Moderate (v / w)) : ∃ u, Rounds (v / w) u ∧ Stands (f / g) u := by
  obtain ⟨m, e, left, unpacked, bits, rfl⟩ := first
  obtain ⟨n, d, right, unpacked', bits', rfl⟩ := second
  have exponents : -100 < e - d + 1 := by
    have above : (m : ℚ) * 2 ^ e / (n * 2 ^ d) < 2 ^ (e - d + 1) := by
      rw [div_lt_iff₀ (by positivity)]
      calc (m : ℚ) * 2 ^ e < 2 ^ 53 * 2 ^ e := by
            gcongr
            exact_mod_cast (mantissaBounds bits).2
        _ ≤ n * 2 ^ (e - d + 1 + d) := nextExponent (by omega) (mantissaBounds bits').1
        _ = 2 ^ (e - d + 1) * (n * 2 ^ d) := by rw [zpow_add₀ (by norm_num)]; ring
    exact (zpow_lt_zpow_iff_right₀ (by norm_num : (1 : ℚ) < 2)).mp (moderate.1.trans_lt above)
  obtain ⟨q, accuracy, x, core, within, wide, value⟩ :=
    quotientCore bits bits' (by omega : -1021 ≤ e - d)
  rw [value] at moderate ⊢
  have divided : f / g = .ofModel (Float.Model.pack
      (roundWithAccuracy Format.binary64 .positive q (e - d - 53) accuracy)) := by
    change Float.ofModel (Float.Model.pack
      (UnpackedFloat.div Format.binary64 f.toModel.unpack g.toModel.unpack)) = _
    rw [unpacked, unpacked']
    change Float.ofModel (Float.Model.pack (roundWithAccuracy Format.binary64 .positive
      (divCore Format.binary64 m e n d).1 (divCore Format.binary64 m e n d).2.1
      (divCore Format.binary64 m e n d).2.2)) = _
    rw [core]
  rw [divided]
  exact roundedStands within wide moderate

theorem productStands {f g : Float} {v w : ℚ} (first : Stands f v) (second : Stands g w)
    (moderate : Moderate (v * w)) : ∃ u, Rounds (v * w) u ∧ Stands (f * g) u := by
  obtain ⟨m, e, _, unpacked, bits, rfl⟩ := first
  obtain ⟨n, d, right, unpacked', _, rfl⟩ := second
  have value : (m : ℚ) * 2 ^ e * (n * 2 ^ d) = (m * n : Nat) * 2 ^ (e + d) := by
    rw [zpow_add₀ (by norm_num)]
    push_cast
    ring
  have product : f * g = .ofModel (Float.Model.pack
      (roundWithAccuracy Format.binary64 .positive (m * n) (e + d) .exact)) := by
    change Float.ofModel (Float.Model.pack
      (UnpackedFloat.mul Format.binary64 f.toModel.unpack g.toModel.unpack)) = _
    rw [unpacked, unpacked']
    rfl
  have wide : 2 ^ 52 ≤ m * n :=
    (mantissaBounds bits).1.trans (Nat.le_mul_of_pos_right m right)
  rw [value] at moderate ⊢
  rw [product]
  exact roundedStands (withinSelf _) wide moderate

theorem moderateQuotient {v w : ℚ} (low : 1 ≤ v) (high : v ≤ 2 ^ 64) (low' : 1 ≤ w)
    (high' : w ≤ 2 ^ 64) : Moderate (v / w) := by
  have positive : 0 < w := one_pos.trans_le low'
  constructor
  · rw [le_div_iff₀ positive]
    calc (2 : ℚ) ^ (-100 : Int) * w ≤ 2 ^ (-100 : Int) * 2 ^ 64 := by gcongr
      _ ≤ 1 := by norm_num
      _ ≤ v := low
  · calc v / w ≤ v := div_le_self (zero_le_one.trans low) low'
      _ ≤ 2 ^ 64 := high
      _ ≤ 2 ^ (100 : Int) := by norm_num

theorem moderateCount {n : Nat} (positive : 0 < n) (small : n < 2 ^ 64) : Moderate n := by
  rw [← div_one (n : ℚ)]
  exact moderateQuotient (by exact_mod_cast positive) (by exact_mod_cast small.le) le_rfl
    (by norm_num)

section Short

variable {n k : Nat} (positive : 0 < n) (bits : n.log2 + k = 52)

include positive bits

theorem roundsShort {v : ℚ} (rounds : Rounds n v) : v = n := by
  obtain ⟨least, most⟩ := (Nat.log2_eq_iff positive.ne').mp (rfl : n.log2 = n.log2)
  have scaled : (n : ℚ) / 2 ^ (-(k : Int)) = (n * 2 ^ k : Nat) := by
    rw [zpow_neg, div_inv_eq_mul, zpow_natCast]
    push_cast
    rfl
  have whole : Rounds n n := by
    refine ⟨-k, n * 2 ^ k, ?_, ?_, ?_, ?_⟩
    · rw [show (52 : Int) + -k = (n.log2 : Nat) by omega, zpow_natCast]
      exact_mod_cast least
    · rw [show (53 : Int) + -k = (n.log2 + 1 : Nat) by omega, zpow_natCast]
      exact_mod_cast most
    · rw [scaled]
      exact nearestSelf _
    · rw [← scaled, div_mul_cancel₀ _ (by positivity)]
  exact le_antisymm (roundsMonotone rounds whole le_rfl) (roundsMonotone whole rounds le_rfl)

theorem shortWidened : UnpackedFloat.ofNat Format.binary64 n =
    roundWithAccuracy Format.binary64 .positive (n <<< k) (0 - k) .exact := by
  have target : Format.binary64.targetExponent (totalExponent n 0) = -(k : Int) := by
    rw [targetExponentOf, totalExponent]
    omega
  have order : compare (n : Int) 0 = .gt := compare_gt_iff_gt.mpr (by omega)
  have amount : (0 - -(k : Int)).toNat = k := by omega
  rw [UnpackedFloat.ofNat, UnpackedFloat.ofInt, UnpackedFloat.normalize, order]
  change UnpackedFloat.round Format.binary64 .positive (n : Int).toNat 0 = _
  rw [Int.toNat_natCast, UnpackedFloat.round, target, decreaseExponent, amount]

theorem shortStands : Stands n.toUInt64.toFloat n := by
  obtain ⟨least, most⟩ := (Nat.log2_eq_iff positive.ne').mp (rfl : n.log2 = n.log2)
  have small : n < 2 ^ 53 := most.trans_le (Nat.pow_le_pow_right (by omega) (by omega))
  have word : n.toUInt64.toNat = n := by
    rw [Nat.toUInt64, UInt64.toNat_ofNat']
    omega
  have value : ((n <<< k : Nat) : ℚ) * 2 ^ (0 - (k : Int)) = n := by
    rw [Nat.shiftLeft_eq, zero_sub, zpow_neg, zpow_natCast]
    push_cast
    exact mul_inv_cancel_right₀ (by positivity) _
  have wide : 2 ^ 52 ≤ n <<< k := by
    rw [Nat.shiftLeft_eq, ← bits, Nat.pow_add]
    exact Nat.mul_le_mul_right _ least
  have moderate := moderateCount positive (small.trans (by norm_num))
  rw [← value] at moderate
  obtain ⟨v, rounds, stands⟩ := roundedStands (withinSelf _) wide moderate
  rw [value] at rounds
  obtain rfl := roundsShort positive bits rounds
  rw [← shortWidened positive bits] at stands
  change Stands (.ofModel (Float.Model.pack (UnpackedFloat.ofNat Format.binary64
    n.toUInt64.toNat))) n
  rw [word]
  exact stands

end Short

theorem oneStands : Stands (Float.ofBits 0x3FF0000000000000) 1 := by
  refine ⟨2 ^ 52, -52, by decide, rfl, Nat.log2_two_pow, ?_⟩
  norm_num

theorem longConverted {n : Nat} (long : 2 ^ 53 ≤ n) :
    Float.ofNat n = .ofModel (Float.Model.pack
      (roundWithAccuracy Format.binary64 .positive (n * 2 ^ 53) (-53) .exact)) := by
  change Float.ofScientific n false 0 = _
  rw [Float.ofScientific, dif_neg (by omega)]
  change Float.ofModel (Float.Model.pack (UnpackedFloat.ofScientific Format.binary64 n 0)) = _
  rw [UnpackedFloat.ofScientific, dif_neg (by omega), if_neg (by decide),
    if_neg (by simp), if_pos le_rfl]
  change Float.ofModel (Float.Model.pack
    (roundWithAccuracy Format.binary64 .positive (n <<< 53 * 1) (-53 + 0) .exact)) = _
  rw [Nat.shiftLeft_eq, mul_one, add_zero]

theorem countStands {n : Nat} (positive : 0 < n) (small : n < 2 ^ 64) :
    ∃ v, Rounds n v ∧ Stands (Float.ofNat n) v := by
  have moderate := moderateCount positive small
  by_cases short : n < 2 ^ 53
  · obtain ⟨k, bits⟩ : ∃ k, n.log2 + k = 52 :=
      ⟨_, Nat.add_sub_of_le (Nat.le_of_lt_succ ((Nat.log2_lt positive.ne').mpr short))⟩
    have converted : Float.ofNat n = n.toUInt64.toFloat * Float.ofBits 0x3FF0000000000000 :=
      dif_pos ⟨short, by decide⟩
    rw [converted, ← mul_one (n : ℚ)]
    exact productStands (shortStands positive bits) oneStands ((mul_one (n : ℚ)).symm ▸ moderate)
  · have value : ((n * 2 ^ 53 : Nat) : ℚ) * 2 ^ (-53 : Int) = n := by
      rw [zpow_neg, Nat.cast_mul]
      exact mul_inv_cancel_right₀ (by norm_num) _
    rw [longConverted (not_lt.mp short), ← value]
    rw [← value] at moderate
    exact roundedStands (withinSelf _) (by omega) moderate

theorem countBetween {n : Nat} {v : ℚ} (positive : 0 < n) (small : n < 2 ^ 64)
    (rounds : Rounds n v) : 1 ≤ v ∧ v ≤ 2 ^ 64 := by
  have one : Rounds 1 1 := by simpa using roundsPower 0
  have top : Rounds (2 ^ 64) (2 ^ 64) := by exact_mod_cast roundsPower 64
  exact ⟨roundsMonotone one rounds (by exact_mod_cast positive),
    roundsMonotone rounds top (by exact_mod_cast small.le)⟩

theorem zeroBelow {f g : Float} (zero : f.toModel.unpack = .zero .positive)
    (above : g.toModel.unpack = .zero .positive ∨ ∃ v, Stands g v) : f ≤ g := by
  refine decide_eq_true (p := f.toModel ≤ g.toModel) ?_
  change f.toModel.unpack.le g.toModel.unpack = true
  rcases above with none | ⟨_, _, _, _, unpacked, _⟩
  · rw [zero, none]
    rfl
  · rw [zero, unpacked]
    rfl

theorem zeroUnpacked : (Float.ofNat 0).toModel.unpack = .zero .positive := rfl

theorem zeroShare {f : Float} {v : ℚ} (stands : Stands f v) :
    (Float.ofNat 0 / f).toModel.unpack = .zero .positive := by
  obtain ⟨m, e, _, unpacked, _⟩ := stands
  change (Float.Model.pack
    (UnpackedFloat.div Format.binary64 (Float.ofNat 0).toModel.unpack f.toModel.unpack)).unpack = _
  rw [unpacked, zeroUnpacked]
  change (Float.Model.pack (.zero .positive)).unpack = _
  rfl

theorem standsNonzero {f : Float} {v : ℚ} (stands : Stands f v) :
    Arithmetic.isZero f = false := by
  obtain ⟨m, e, _, unpacked, _⟩ := stands
  change f.toModel.unpack.beq (0 : Float).toModel.unpack = false
  rw [unpacked]
  rfl

theorem packedNonzero {m : Nat} {e : Int} (positive : 0 < m) (bits : m.log2 = 52)
    (low : -1074 ≤ e) : Arithmetic.isZero
      (Float.ofModel (Float.Model.pack (.finite .positive m e positive))) = false := by
  by_cases finite : e ≤ 971
  · exact standsNonzero ⟨m, e, positive, packedNormal positive bits low finite, bits, rfl⟩
  · rw [packedHuge positive (not_le.mp finite)]
    decide +kernel

theorem longPacked {n : Nat} (long : 2 ^ 53 ≤ n) : ∃ m e positive,
    Float.ofNat n = .ofModel (Float.Model.pack (.finite .positive m e positive)) ∧
      m.log2 = 52 ∧ -53 ≤ e := by
  obtain ⟨k, bits⟩ := wideBits (by omega : 2 ^ 52 ≤ n * 2 ^ 53)
  have low : (-53 : Int) ≤ -53 + (k : Int) := le_add_of_nonneg_right (Int.natCast_nonneg k)
  obtain ⟨_, m, e, positive, _, rounded, settledBits, below, _⟩ :=
    roundedNormal (withinSelf (n * 2 ^ 53)) bits ((by decide : (-1074 : Int) ≤ -53).trans low)
  exact ⟨m, e, positive, by rw [longConverted long, rounded], settledBits, low.trans below⟩

theorem countNonzero {n : Nat} (positive : 0 < n) : Arithmetic.isZero (Float.ofNat n) = false := by
  by_cases short : n < 2 ^ 53
  · obtain ⟨_, _, stands⟩ := countStands positive (short.trans (by norm_num))
    exact standsNonzero stands
  · obtain ⟨_, _, some, packed, bits, low⟩ := longPacked (not_lt.mp short)
    rw [packed]
    exact packedNonzero some bits (by omega)

end Double

open Double Arithmetic in
theorem Arithmetic.countsDoubles : CountsApart Float := by
  intro n
  constructor
  · intro zero
    by_contra some
    exact Bool.false_ne_true ((countNonzero (Nat.pos_of_ne_zero some)).symm.trans zero)
  · rintro rfl
    decide

open Double Arithmetic in
theorem shareMonotone {a b n : Nat} (order : a ≤ b) (part : b < 2 ^ 64) (whole : n < 2 ^ 64) :
    (share a n : Float) ≤ share b n := by
  rcases Nat.eq_zero_or_pos n with rfl | positive
  · exact (by decide : (share 0 0 : Float) ≤ share 0 0)
  obtain ⟨w, rounds, stands⟩ := countStands positive whole
  obtain ⟨least, most⟩ := countBetween positive whole rounds
  have divided : ∀ m : Nat, (share m n : Float) = Float.ofNat m / Float.ofNat n :=
    fun m => shareQuotient countsDoubles m positive
  have quotient : ∀ m : Nat, 0 < m → m < 2 ^ 64 → ∃ v u, Rounds m v ∧ Rounds (v / w) u ∧
      Stands (Float.ofNat m / Float.ofNat n) u := by
    intro m some small
    obtain ⟨v, rounds', stands'⟩ := countStands some small
    obtain ⟨least', most'⟩ := countBetween some small rounds'
    obtain ⟨u, rounded, standing⟩ :=
      quotientStands stands' stands (moderateQuotient least' most' least most)
    exact ⟨v, u, rounds', rounded, standing⟩
  rw [divided, divided]
  rcases Nat.eq_zero_or_pos a with rfl | some
  · refine zeroBelow (zeroShare stands) ?_
    rcases Nat.eq_zero_or_pos b with rfl | more
    · exact .inl (zeroShare stands)
    · obtain ⟨_, u, _, _, above⟩ := quotient b more part
      exact .inr ⟨u, above⟩
  · obtain ⟨v, u, rounds, rounded, below⟩ := quotient a some (order.trans_lt part)
    obtain ⟨v', u', rounds', rounded', above⟩ := quotient b (some.trans_le order) part
    have parts : v ≤ v' := roundsMonotone rounds rounds' (by exact_mod_cast order)
    have quotients : v / w ≤ v' / w := by gcongr
    exact standsOrdered below above (roundsMonotone rounded rounded' quotients)

end EvalReport
