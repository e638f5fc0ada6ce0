import EvalReport.Decimal.Shortest
import EvalReport.Proofs.Numerals
import Mathlib.Algebra.Order.Field.Power
import Mathlib.Algebra.Order.Field.Rat
import Mathlib.Tactic.FieldSimp
import Mathlib.Tactic.Linarith
import Mathlib.Tactic.NormNum
import Mathlib.Tactic.Positivity
import Mathlib.Tactic.Ring

/-! Shortest digits. The decimal chosen for a word lies no further from what the word stands for
than half the way to a neighbour, and seventeen digits are enough for one to be found. No other
word of the format is as near to it, except at the half way, where the last bit decides. -/
namespace EvalReport

/-! ### Words and their neighbours -/

namespace Binary

variable {f : Format} {m n : Nat} {q r : Int} {narrow : Bool}

def rational? : Binary → Option ℚ
  | finite negative m q _ => some ((if negative then -1 else 1) * (m * (2 : ℚ) ^ q))
  | _ => none

/- No word of the format is nearer to `x`; where one is as near, this word is the even one. -/
def Format.Nearest (f : Format) (word : Nat) (x : ℚ) : Prop :=
  ∃ v, (decode f word).rational? = some v ∧ ∀ other w, (decode f other).rational? = some w → w ≠ v →
    |x - v| < |x - w| ∨ |x - v| = |x - w| ∧ word % 2 = 0

/- The significands and exponents of finite words: full, or as small as exponents go. -/
structure Format.Holds (f : Format) (m : Nat) (q : Int) : Prop where
  fits : m < 2 ^ (f.fractionBits + 1)
  least : f.lowestExponent ≤ q
  full : f.lowestExponent < q → 2 ^ f.fractionBits ≤ m

theorem holdsZero (f : Format) : f.Holds 0 f.lowestExponent :=
  ⟨Nat.pow_pos two_pos, le_refl _, fun less => absurd less (lt_irrefl _)⟩

theorem decodedFinite {word : Nat} {negative : Bool}
    (finite : decode f word = .finite negative m q narrow) :
    f.Holds m q ∧ (narrow = true → m = 2 ^ f.fractionBits) ∧
      (narrow = false → f.lowestExponent < q → 2 ^ f.fractionBits < m) ∧
      m % 2 ^ f.fractionBits = word % 2 ^ f.fractionBits := by
  have hidden : Nat.pow 2 f.fractionBits = 2 ^ f.fractionBits := rfl
  have below : word % 2 ^ f.fractionBits < 2 ^ f.fractionBits :=
    Nat.mod_lt _ (Nat.pow_pos two_pos)
  have double : 2 ^ (f.fractionBits + 1) = 2 * 2 ^ f.fractionBits := by rw [pow_succ, mul_comm]
  unfold decode at finite
  simp only [hidden] at finite
  split at finite
  · split at finite <;> contradiction
  · split at finite
    · cases finite
      refine ⟨⟨by omega, le_refl _, fun less => absurd less (lt_irrefl _)⟩, nofun, ?_,
        Nat.mod_eq_of_lt below⟩
      exact fun _ less => absurd less (lt_irrefl _)
    · rename_i normal
      cases finite
      generalize word / 2 ^ f.fractionBits % Nat.pow 2 f.exponentBits = biased at normal ⊢
      refine ⟨⟨by omega, by omega, fun _ => Nat.le_add_right _ _⟩, ?_, ?_, ?_⟩
      · intro narrowed
        have none : word % 2 ^ f.fractionBits = 0 := by simp at narrowed; exact narrowed.1
        rw [none, Nat.add_zero]
      · intro wide above
        have some : word % 2 ^ f.fractionBits ≠ 0 := by
          intro none
          simp only [none, beq_self_eq_true, Bool.true_and, decide_eq_false_iff_not] at wide
          omega
        omega
      · rw [Nat.add_mod_left, Nat.mod_mod]

theorem scaledMultiple (n k : Nat) (q : Int) :
    (n : ℚ) * (2 : ℚ) ^ (q + (k : Int)) = (n * 2 ^ k : Nat) * (2 : ℚ) ^ q := by
  rw [zpow_add₀ two_ne_zero, zpow_natCast]
  push_cast
  ring

theorem multiplesApart (less : (m : ℚ) * (2 : ℚ) ^ q < n * (2 : ℚ) ^ q) :
    (m : ℚ) * (2 : ℚ) ^ q + 2 ^ q ≤ n * 2 ^ q := by
  have unit : (0 : ℚ) < 2 ^ q := by positivity
  have counted : m + 1 ≤ n := by exact_mod_cast lt_of_mul_lt_mul_right less unit.le
  calc (m : ℚ) * (2 : ℚ) ^ q + 2 ^ q = ((m + 1 : Nat) : ℚ) * 2 ^ q := by push_cast; ring
    _ ≤ n * 2 ^ q := by gcongr

/- What has a lesser exponent stays below a full significand, by one in its own last place. -/
theorem lesserBelow (other : f.Holds n r) (less : r < q) :
    (n : ℚ) * (2 : ℚ) ^ r + 2 ^ (q - 1) ≤ (2 ^ f.fractionBits : Nat) * (2 : ℚ) ^ q := by
  have below : (2 : ℚ) ^ r ≤ 2 ^ (q - 1) := zpow_le_zpow_right₀ (by norm_num) (by omega)
  have counted : ((n + 1 : Nat) : ℚ) ≤ (2 ^ (f.fractionBits + 1) : Nat) := by
    exact_mod_cast other.fits
  calc (n : ℚ) * (2 : ℚ) ^ r + 2 ^ (q - 1) ≤ n * 2 ^ (q - 1) + 2 ^ (q - 1) := by gcongr
    _ = ((n + 1 : Nat) : ℚ) * 2 ^ (q - 1) := by push_cast; ring
    _ ≤ (2 ^ (f.fractionBits + 1) : Nat) * 2 ^ (q - 1) := by gcongr
    _ = (2 ^ f.fractionBits : Nat) * (2 : ℚ) ^ q := by
      rw [zpow_sub₀ two_ne_zero, zpow_one]
      push_cast
      ring

theorem gapAbove (holds : f.Holds m q) (other : f.Holds n r)
    (less : (m : ℚ) * (2 : ℚ) ^ q < n * (2 : ℚ) ^ r) :
    (m : ℚ) * (2 : ℚ) ^ q + 2 ^ q ≤ n * 2 ^ r := by
  rcases le_or_gt q r with under | beyond
  · obtain ⟨k, rfl⟩ := Int.le.dest under
    rw [scaledMultiple] at less ⊢
    exact multiplesApart less
  · have full : ((2 ^ f.fractionBits : Nat) : ℚ) ≤ m := by
      exact_mod_cast holds.full (other.least.trans_lt beyond)
    have step := lesserBelow other beyond
    have unit : (0 : ℚ) < 2 ^ (q - 1) := by positivity
    have reach : ((2 ^ f.fractionBits : Nat) : ℚ) * (2 : ℚ) ^ q ≤ m * 2 ^ q := by gcongr
    linarith

theorem gapBelow (holds : f.Holds m q) (other : f.Holds n r)
    (wide : narrow = false → f.lowestExponent < q → 2 ^ f.fractionBits < m)
    (less : (n : ℚ) * (2 : ℚ) ^ r < m * (2 : ℚ) ^ q) :
    (n : ℚ) * (2 : ℚ) ^ r + (if narrow then 1 else 2) * 2 ^ q / 2 ≤ m * 2 ^ q := by
  have unit : (0 : ℚ) < 2 ^ q := by positivity
  have most : (if narrow then (1 : ℚ) else 2) * 2 ^ q / 2 ≤ 2 ^ q := by
    split <;> linarith
  rcases le_or_gt q r with under | beyond
  · obtain ⟨k, rfl⟩ := Int.le.dest under
    rw [scaledMultiple] at less ⊢
    have apart := multiplesApart less
    linarith
  · have inside := other.least.trans_lt beyond
    have step := lesserBelow other beyond
    have half : (2 : ℚ) ^ (q - 1) = 2 ^ q / 2 := by rw [zpow_sub₀ two_ne_zero, zpow_one]
    cases narrow with
    | true =>
      have reach : ((2 ^ f.fractionBits : Nat) : ℚ) * (2 : ℚ) ^ q ≤ m * 2 ^ q := by
        gcongr
        exact_mod_cast holds.full inside
      simp only [if_true]
      linarith
    | false =>
      have more : ((2 ^ f.fractionBits : Nat) : ℚ) + 1 ≤ m := by exact_mod_cast wide rfl inside
      have reach : (((2 ^ f.fractionBits : Nat) : ℚ) + 1) * (2 : ℚ) ^ q ≤ m * 2 ^ q := by gcongr
      simp only [Bool.false_eq_true, if_false]
      linarith

/-! ### Within half the way to a neighbour -/

/- A distance of at most so many quarters of the last place, the whole of them only where the
significand is even. -/
def Fits (m : Nat) (q : Int) (quarters distance : ℚ) : Prop :=
  4 * distance < quarters * 2 ^ q ∨ 4 * distance = quarters * 2 ^ q ∧ m % 2 = 0

def Inside (m : Nat) (q : Int) (narrow : Bool) (x : ℚ) : Prop :=
  x ≤ m * 2 ^ q ∧ Fits m q (if narrow then 1 else 2) (m * 2 ^ q - x) ∨
    (m : ℚ) * 2 ^ q ≤ x ∧ Fits m q 2 (x - m * 2 ^ q)

theorem fitsNearer {quarters distance other : ℚ} (fits : Fits m q quarters distance)
    (far : quarters * 2 ^ q / 2 ≤ distance + other) :
    distance < other ∨ distance = other ∧ m % 2 = 0 := by
  rcases fits with inside | ⟨half, even⟩
  · exact .inl (by linarith)
  · rcases lt_or_eq_of_le (by linarith : distance ≤ other) with nearer | same
    · exact .inl nearer
    · exact .inr ⟨same, even⟩

theorem insideNearer {x : ℚ} (holds : f.Holds m q) (other : f.Holds n r)
    (wide : narrow = false → f.lowestExponent < q → 2 ^ f.fractionBits < m)
    (inside : Inside m q narrow x) (apart : (n : ℚ) * 2 ^ r ≠ m * 2 ^ q) :
    |x - m * 2 ^ q| < |x - n * 2 ^ r| ∨ |x - m * 2 ^ q| = |x - n * 2 ^ r| ∧ m % 2 = 0 := by
  have unit : (0 : ℚ) < 2 ^ q := by positivity
  rcases inside with ⟨under, fits⟩ | ⟨beyond, fits⟩
  · rw [abs_sub_comm x, abs_of_nonneg (sub_nonneg.mpr under)]
    rcases lt_or_gt_of_ne apart with below | above
    · have gap := gapBelow holds other wide below
      exact fitsNearer fits (by linarith [le_abs_self (x - n * 2 ^ r)])
    · exact .inl (by linarith [neg_abs_le (x - n * 2 ^ r)])
  · rw [abs_of_nonneg (sub_nonneg.mpr beyond)]
    rcases lt_or_gt_of_ne apart with below | above
    · exact .inl (by linarith [le_abs_self (x - n * 2 ^ r)])
    · have gap := gapAbove holds other above
      exact fitsNearer fits (by linarith [neg_abs_le (x - n * 2 ^ r)])

/- A word of the other sign is further away than zero is. -/
theorem insideNearest {x w : ℚ} (holds : f.Holds m q) (other : f.Holds n r) (positive : 0 ≤ x)
    (wide : narrow = false → f.lowestExponent < q → 2 ^ f.fractionBits < m)
    (inside : Inside m q narrow x) (size : |w| = n * 2 ^ r) (apart : w ≠ m * 2 ^ q) :
    |x - m * 2 ^ q| < |x - w| ∨ |x - m * 2 ^ q| = |x - w| ∧ m % 2 = 0 := by
  rcases abs_choice w with same | turned
  · rw [size] at same
    rw [← same] at apart ⊢
    exact insideNearer holds other wide inside apart
  · have negative : w ≤ 0 := by linarith [abs_nonneg w]
    have further : |x| ≤ |x - w| := by
      rw [abs_of_nonneg positive, abs_of_nonneg (by linarith)]
      linarith
    by_cases zero : (m : ℚ) * 2 ^ q = 0
    · have less : w < 0 := lt_of_le_of_ne negative (zero ▸ apart)
      left
      rw [zero, sub_zero, abs_of_nonneg positive, abs_of_nonneg (by linarith)]
      linarith
    · have nearer := insideNearer holds (holdsZero f) wide inside
        (by rw [Nat.cast_zero, zero_mul]; exact Ne.symm zero)
      rw [Nat.cast_zero, zero_mul, sub_zero] at nearer
      rcases nearer with less | ⟨same, even⟩
      · exact .inl (less.trans_le further)
      · exact (lt_or_eq_of_le (same.le.trans further)).imp_right fun tie => ⟨tie, even⟩

theorem finiteSize {word : Nat} {w : ℚ} (finite : (decode f word).rational? = some w) :
    ∃ n r, f.Holds n r ∧ |w| = n * 2 ^ r := by
  cases decoded : decode f word with
  | nan => simp [decoded, rational?] at finite
  | infinite negative => simp [decoded, rational?] at finite
  | finite negative n r narrow =>
    rw [decoded] at finite
    cases Option.some.inj finite
    refine ⟨n, r, (decodedFinite decoded).1, ?_⟩
    have size : (0 : ℚ) ≤ n * 2 ^ r := by positivity
    cases negative <;> simp [abs_of_nonneg size, -abs_mul]

theorem nearestWord {word : Nat} {negative : Bool} {x : ℚ} (fraction : 0 < f.fractionBits)
    (decoded : decode f word = .finite negative m q narrow) (positive : 0 ≤ x)
    (inside : Inside m q narrow x) : f.Nearest word ((if negative then -1 else 1) * x) := by
  obtain ⟨holds, _, wide, last⟩ := decodedFinite decoded
  have parity : m % 2 = word % 2 := by
    have divides : 2 ∣ 2 ^ f.fractionBits := dvd_pow_self 2 fraction.ne'
    have same := congrArg (· % 2) last
    simpa only [Nat.mod_mod_of_dvd _ divides] using same
  refine ⟨_, by rw [decoded]; rfl, fun other w finite apart => ?_⟩
  obtain ⟨n, r, legal, size⟩ := finiteSize finite
  rw [← parity]
  cases negative with
  | false =>
    simp only [Bool.false_eq_true, if_false, one_mul] at apart ⊢
    exact insideNearest holds legal positive wide inside size apart
  | true =>
    simp only [if_true, neg_one_mul] at apart ⊢
    have turned := insideNearest (w := -w) holds legal positive wide inside
      ((abs_neg w).trans size) (fun same => apart (by rw [← same, neg_neg]))
    have flip (y : ℚ) : |(-x) - y| = |x - -y| := by rw [← abs_neg]; congr 1; ring
    rw [flip, flip, neg_neg]
    exact turned

end Binary

/-! ### Digits -/

namespace Decimal

open Binary

theorem digitsBounds {n : Nat} (positive : 0 < n) :
    10 ^ ((digits n).length - 1) ≤ n ∧ n < 10 ^ (digits n).length := by
  induction n using digits.induct with
  | case1 n below =>
    rw [digits, if_pos below]
    exact ⟨positive, below⟩
  | case2 n above ih =>
    obtain ⟨least, most⟩ := ih (by omega)
    obtain ⟨k, size⟩ := Nat.exists_eq_add_one.mpr (List.length_pos_iff.mpr (digitsSome (n / 10)))
    rw [size, Nat.add_sub_cancel] at least
    rw [size] at most
    rw [digits, if_neg above, List.length_append, List.length_singleton, size, Nat.add_sub_cancel]
    rw [Nat.pow_succ] at most ⊢
    rw [Nat.pow_succ]
    omega

theorem leadingBelow {n d : Nat} (some : 0 < n) (positive : 0 < d) :
    (10 : ℚ) ^ leading n d ≤ n / d := by
  have divisor : (0 : ℚ) < d := by exact_mod_cast positive
  rw [le_div_iff₀ divisor]
  unfold leading
  split
  · rename_i whole
    obtain ⟨least, _⟩ := digitsBounds (Nat.div_pos whole positive)
    have filled := List.length_pos_iff.mpr (digitsSome (n / d))
    rw [show ((digits (n / d)).length : Int) - 1 = ((digits (n / d)).length - 1 : Nat) by omega,
      zpow_natCast]
    exact_mod_cast (Nat.mul_le_mul_right d least).trans (Nat.div_mul_le_self n d)
  · rename_i below
    have scaled : d ≤ n * 10 ^ (digits ((d - 1) / n)).length := by
      rcases Nat.eq_zero_or_pos ((d - 1) / n) with none | more
      · have small := (Nat.div_eq_zero_iff_lt some).mp none
        exact (by omega : d ≤ n).trans (Nat.le_mul_of_pos_right n (Nat.pow_pos (by decide)))
      · have next := (Nat.div_lt_iff_lt_mul some).mp (digitsBounds more).2
        rw [Nat.mul_comm]
        omega
    rw [zpow_neg, zpow_natCast, inv_mul_le_iff₀ (by positivity), mul_comm]
    exact_mod_cast scaled

theorem powSplit {b : Nat} (positive : 0 < b) (e : Int) :
    (b : ℚ) ^ e * (b ^ (-e).toNat : Nat) = (b ^ e.toNat : Nat) := by
  have base : (b : ℚ) ≠ 0 := by exact_mod_cast positive.ne'
  rw [Nat.cast_pow, Nat.cast_pow, ← zpow_natCast, ← zpow_natCast, ← zpow_add₀ base]
  congr 1
  omega

theorem binarySplit (q : Int) : (2 : ℚ) ^ q * (pow2 (-q) : Nat) = (pow2 q : Nat) := by
  exact_mod_cast powSplit two_pos q

theorem gridUnits (q p : Int) : ∃ t : ℚ, 0 < t ∧
    (2 : ℚ) ^ q = (pow2 q * pow10 (-p) : Nat) * t ∧
      (10 : ℚ) ^ p = (pow2 (-q) * pow10 p : Nat) * t := by
  have ten : (10 : ℚ) ^ p * (pow10 (-p) : Nat) = (pow10 p : Nat) := by
    exact_mod_cast powSplit (b := 10) (by decide) p
  have binary : (0 : ℚ) < (pow2 (-q) : Nat) := by exact_mod_cast Nat.pow_pos two_pos
  have decimal : (0 : ℚ) < (pow10 (-p) : Nat) := by exact_mod_cast Nat.pow_pos (by decide)
  refine ⟨1 / ((pow2 (-q) : Nat) * (pow10 (-p) : Nat)), by positivity, ?_, ?_⟩
  · rw [Nat.cast_mul, ← binarySplit]
    field_simp
  · rw [Nat.cast_mul, ← ten]
    field_simp

section Grid

variable {m unit scale gap distance : Nat} {q p : Int} {narrow : Bool} {t : ℚ}

theorem withinExact : within m unit distance gap = true ↔
    4 * distance < gap * unit ∨ 4 * distance = gap * unit ∧ m % 2 = 0 := by
  simp [within]

theorem withinFits (positive : 0 < t) (units : (2 : ℚ) ^ q = unit * t)
    (close : within m unit distance gap = true) : Fits m q gap (distance * t) := by
  rw [Fits, units]
  rcases withinExact.mp close with less | ⟨same, even⟩
  · have scaled : ((4 * distance : Nat) : ℚ) < (gap * unit : Nat) := by exact_mod_cast less
    push_cast at scaled
    exact .inl (by rw [← mul_assoc, ← mul_assoc]; gcongr)
  · have scaled : ((4 * distance : Nat) : ℚ) = (gap * unit : Nat) := by exact_mod_cast same
    push_cast at scaled
    exact .inr ⟨by rw [← mul_assoc, scaled, mul_assoc], even⟩

theorem pickNear (tie : Tie) (below rest scale : Nat) :
    pick tie below rest scale true true = some below ∨
      pick tie below rest scale true true = some (below + 1) := by
  simp only [pick, Bool.and_self, if_true]
  split
  · exact .inl rfl
  · split
    · exact .inr rfl
    · cases tie with
      | up => exact .inr rfl
      | toEven =>
        dsimp only
        split
        · exact .inl rfl
        · exact .inr rfl

theorem pickSide {tie : Tie} {below rest : Nat} {low high : Bool} {c : Nat}
    (picked : pick tie below rest scale low high = some c) :
    c = below ∧ low = true ∨ c = below + 1 ∧ high = true := by
  cases low with
  | false =>
    cases high with
    | false => contradiction
    | true => exact .inr ⟨(Option.some.inj picked).symm, rfl⟩
  | true =>
    cases high with
    | false => exact .inl ⟨(Option.some.inj picked).symm, rfl⟩
    | true =>
      refine (pickNear tie below rest scale).imp (fun low => ⟨?_, rfl⟩) fun high => ⟨?_, rfl⟩
      · exact Option.some.inj (picked.symm.trans low)
      · exact Option.some.inj (picked.symm.trans high)

theorem pickSome (tie : Tie) (below rest scale : Nat) {low high : Bool}
    (near : low = true ∨ high = true) : ∃ c, pick tie below rest scale low high = some c := by
  cases low with
  | false =>
    obtain rfl : high = true := by simpa using near
    exact ⟨_, rfl⟩
  | true =>
    cases high with
    | false => exact ⟨_, rfl⟩
    | true => exact (pickNear tie below rest scale).elim (⟨_, ·⟩) (⟨_, ·⟩)

theorem onGridInside {tie : Tie} {c : Nat} (found : onGrid tie m q narrow p = some c) :
    Inside m q narrow (c * 10 ^ p) := by
  obtain ⟨t, positive, units, scales⟩ := gridUnits q p
  have side := pickSide found
  generalize pow2 q * pow10 (-p) = unit at units side
  generalize spread : pow2 (-q) * pow10 p = scale at scales side
  have some : 0 < scale := by
    rw [← spread]
    exact Nat.mul_pos (Nat.pow_pos two_pos) (Nat.pow_pos (by decide))
  have split : (m : ℚ) * 2 ^ q = ((m * unit / scale : Nat) : ℚ) * 10 ^ p +
      ((m * unit % scale : Nat) : ℚ) * t := by
    rw [units, scales]
    have whole : ((m * unit : Nat) : ℚ) =
        (scale : ℚ) * (m * unit / scale : Nat) + (m * unit % scale : Nat) := by
      exact_mod_cast (Nat.div_add_mod (m * unit) scale).symm
    rw [← mul_assoc, ← Nat.cast_mul, whole]
    ring
  rcases side with ⟨rfl, low⟩ | ⟨rfl, high⟩
  · left
    have distance : (m : ℚ) * 2 ^ q - ((m * unit / scale : Nat) : ℚ) * 10 ^ p =
        (m * unit % scale : Nat) * t := by rw [split]; ring
    have fits := withinFits positive units low
    rw [← distance] at fits
    refine ⟨by rw [split]; exact le_add_of_nonneg_right (by positivity), ?_⟩
    cases narrow <;> exact_mod_cast fits
  · right
    have rest : m * unit % scale ≤ scale := (Nat.mod_lt _ some).le
    have distance : ((m * unit / scale + 1 : Nat) : ℚ) * 10 ^ p - m * 2 ^ q =
        (scale - m * unit % scale : Nat) * t := by
      rw [split, Nat.cast_sub rest, scales]
      push_cast
      ring
    have fits := withinFits positive units high
    rw [← distance] at fits
    refine ⟨sub_nonneg.mp (by rw [distance]; positivity), ?_⟩
    exact_mod_cast fits

theorem onGridHit (tie : Tie)
    (fine : 4 * (10 : ℚ) ^ p < ((if narrow then 1 else 2 : Nat) + 2) * 2 ^ q) :
    ∃ c, onGrid tie m q narrow p = some c := by
  obtain ⟨t, positive, units, scales⟩ := gridUnits q p
  apply pickSome
  rw [withinExact, withinExact]
  rw [units, scales, ← mul_assoc, ← mul_assoc] at fine
  have counted : 4 * (pow2 (-q) * pow10 p) <
      ((if narrow then 1 else 2) + 2) * (pow2 q * pow10 (-p)) := by
    exact_mod_cast lt_of_mul_lt_mul_right fine positive.le
  have rest : m * (pow2 q * pow10 (-p)) % (pow2 (-q) * pow10 p) < pow2 (-q) * pow10 p :=
    Nat.mod_lt _ (Nat.mul_pos (Nat.pow_pos two_pos) (Nat.pow_pos (by decide)))
  rw [Nat.add_mul] at counted
  omega

end Grid

def Scientific.value (s : Scientific) : ℚ := s.coefficient * 10 ^ s.exponent

theorem dropZerosValue (fuel : Nat) (s : Scientific) :
    (dropZeros fuel s).value = s.value ∧
      ((dropZeros fuel s).coefficient = 0 → s.coefficient = 0) := by
  induction fuel generalizing s with
  | zero => exact ⟨rfl, id⟩
  | succ fuel ih =>
    rw [dropZeros]
    split
    · rename_i trailing
      obtain ⟨value, zero⟩ := ih ⟨s.coefficient / 10, s.exponent + 1⟩
      refine ⟨value.trans ?_, fun none => absurd (zero none) (by dsimp only; omega)⟩
      have tens : (s.coefficient : ℚ) = (s.coefficient / 10 : Nat) * 10 := by
        exact_mod_cast (Nat.div_mul_cancel (Nat.dvd_of_mod_eq_zero trailing.2)).symm
      rw [Scientific.value, Scientific.value, tens, zpow_add₀ (by norm_num), zpow_one]
      ring
    · exact ⟨rfl, id⟩

theorem leadingFine {m : Nat} {q : Int} {narrow : Bool} (positive : 0 < m) (fits : m < 2 ^ 53)
    (halved : narrow = true → m ≤ 2 ^ 52) :
    4 * (10 : ℚ) ^ (leading (m * pow2 q) (pow2 (-q)) - 16) <
      ((if narrow then 1 else 2 : Nat) + 2) * 2 ^ q := by
  have unit : (0 : ℚ) < 2 ^ q := by positivity
  have binary : 0 < pow2 q := Nat.pow_pos two_pos
  have divisor : 0 < pow2 (-q) := Nat.pow_pos two_pos
  have below := leadingBelow (Nat.mul_pos positive binary) divisor
  have value : ((m * pow2 q : Nat) : ℚ) / (pow2 (-q) : Nat) = m * 2 ^ q := by
    rw [div_eq_iff (by exact_mod_cast divisor.ne'), Nat.cast_mul, ← binarySplit, mul_assoc]
  rw [value] at below
  rw [zpow_sub₀ (by norm_num), show (10 : ℚ) ^ (16 : Int) = 10000000000000000 by norm_num]
  cases narrow with
  | false =>
    have small : (m : ℚ) ≤ 9007199254740992 := by exact_mod_cast fits.le
    have reach : (m : ℚ) * 2 ^ q ≤ 9007199254740992 * 2 ^ q := by gcongr
    norm_num
    linarith
  | true =>
    have small : (m : ℚ) ≤ 4503599627370496 := by exact_mod_cast halved rfl
    have reach : (m : ℚ) * 2 ^ q ≤ 4503599627370496 * 2 ^ q := by gcongr
    norm_num
    linarith

/- A significand of at most 53 bits has sixteen digits or fewer, and so the grid of seventeen has a
hit at the latest. -/
theorem shortestFound (tie : Tie) {m : Nat} {q : Int} {narrow : Bool} (positive : 0 < m)
    (fits : m < 2 ^ 53) (halved : narrow = true → m ≤ 2 ^ 52) :
    ∃ c p, shortest tie m q narrow = dropZeros mostDigits ⟨c, p⟩ ∧
      onGrid tie m q narrow p = some c := by
  let top := leading (m * pow2 q) (pow2 (-q))
  let hit := (List.range mostDigits).findSome? fun (n : Nat) =>
    (onGrid tie m q narrow (top - n)).map fun c => (⟨c, top - n⟩ : Scientific)
  have unfolded : shortest tie m q narrow = dropZeros mostDigits (hit.getD ⟨m * pow2 q, 0⟩) :=
    if_neg positive.ne'
  cases found : hit with
  | none =>
    obtain ⟨c, last⟩ := onGridHit tie (leadingFine positive fits halved)
    have missed := List.findSome?_eq_none_iff.mp found 16 (by decide)
    have same : top - (16 : Nat) = leading (m * pow2 q) (pow2 (-q)) - 16 := rfl
    rw [same, last] at missed
    contradiction
  | some s =>
    obtain ⟨n, _, mapped⟩ := List.exists_of_findSome?_eq_some found
    obtain ⟨c, here, rfl⟩ := Option.map_eq_some_iff.mp mapped
    exact ⟨c, top - n, by rw [unfolded, found, Option.getD_some], here⟩

theorem insideNonzero {m : Nat} {q : Int} {narrow : Bool} {x : ℚ} (positive : 0 < m)
    (inside : Inside m q narrow x) : x ≠ 0 := by
  rintro rfl
  have unit : (0 : ℚ) < 2 ^ q := by positivity
  have one : (1 : ℚ) ≤ m := by exact_mod_cast positive
  have reach : (1 : ℚ) * 2 ^ q ≤ m * 2 ^ q := by gcongr
  rcases inside with ⟨_, fits⟩ | ⟨beyond, _⟩
  · rcases fits with less | ⟨same, _⟩ <;> cases narrow <;> simp at * <;> linarith
  · linarith

theorem shortestInside (tie : Tie) {m : Nat} {q : Int} {narrow : Bool} (fits : m < 2 ^ 53)
    (halved : narrow = true → m ≤ 2 ^ 52) :
    Inside m q narrow (shortest tie m q narrow).value ∧
      ((shortest tie m q narrow).coefficient = 0 → (shortest tie m q narrow).exponent = 0) := by
  rcases Nat.eq_zero_or_pos m with rfl | positive
  · have zero : shortest tie 0 q narrow = ⟨0, 0⟩ := if_pos rfl
    rw [zero]
    refine ⟨.inl ⟨by simp [Scientific.value], .inl ?_⟩, fun _ => rfl⟩
    cases narrow <;> simp [Scientific.value] <;> positivity
  · obtain ⟨c, p, same, found⟩ := shortestFound tie positive fits halved
    have value : (shortest tie m q narrow).value = c * 10 ^ p := by
      rw [same]
      exact (dropZerosValue mostDigits ⟨c, p⟩).1
    have inside := onGridInside found
    rw [← value] at inside
    refine ⟨inside, fun none => absurd ?_ (insideNonzero positive inside)⟩
    rw [Scientific.value, none, Nat.cast_zero, zero_mul]

end Decimal

end EvalReport
