import EvalReport.Score
import Mathlib.Data.EReal.Operations
import Mathlib.Tactic.Linarith
import Mathlib.Tactic.Positivity
import Mathlib.Tactic.Ring

/-! Scores as numbers. A word that is no NaN stands for a real number or an infinity, and its
level is the place of that number among all of them. The total order of words refines the
levels: it only tells the two zeros apart, and puts the NaNs at the ends. -/
namespace EvalReport

/- What a word stands for. A NaN stands for nothing; zero is put in its place. -/
noncomputable def Binary.value : Binary → EReal
  | nan => 0
  | infinite negative => if negative then ⊥ else ⊤
  | finite negative significand exponent _ =>
    (((if negative then -1 else 1) * (significand * (2 : ℝ) ^ exponent) : ℝ) : EReal)

namespace Score

noncomputable def value (s : Score) : EReal := s.binary.value

variable {a b : Score}

/-! ### Words -/

theorem magnitudeBelow (s : Score) : s.magnitude < 0x80000000 :=
  Nat.mod_lt _ (by decide)

theorem wordSplits (s : Score) :
    s.bits.toNat = (if s.negative then 0x80000000 else 0) + s.magnitude := by
  have bound := s.bits.toNat_lt
  simp only [negative, magnitude, decide_eq_true_eq]
  split <;> omega

theorem placeInjective (same : a.place = b.place) : a = b := by
  have first := wordSplits a
  have second := wordSplits b
  have bits : a.bits.toNat = b.bits.toNat := by
    simp only [place] at same
    split at same <;> split at same <;> simp_all <;> omega
  cases a
  cases b
  exact congrArg Score.mk (UInt32.toNat_inj.mp bits)

theorem levelOfPlace (ordered : a.place ≤ b.place) : a.level ≤ b.level := by
  simp only [place, level] at *
  split at ordered <;> split at ordered <;> simp_all <;> omega

theorem levelMagnitude (s : Score) : s.level.natAbs = s.magnitude := by
  simp only [level]
  split <;> omega

theorem nanOfLevel (same : a.level = b.level) : a.isNaN = b.isNaN := by
  simp only [isNaN, ← levelMagnitude, same]

theorem sameExact (first : a.isNaN = false) (second : b.isNaN = false) :
    a.same b = true ↔ a.level = b.level := by
  simp [same, first, second]

theorem belowExact (first : a.isNaN = false) (second : b.isNaN = false) :
    a.below b = true ↔ a.level < b.level := by
  simp [below, first, second]

/-! ### Numbers -/

def quanta (m : Nat) : Nat :=
  if m / 0x800000 = 0 then m % 0x800000
  else (0x800000 + m % 0x800000) * Nat.pow 2 (m / 0x800000 - 1)

theorem quantaStep (m : Nat) : quanta m < quanta (m + 1) := by
  have split := Nat.div_add_mod m 0x800000
  have bound := Nat.mod_lt m (show 0x800000 > 0 by decide)
  by_cases carry : m % 0x800000 + 1 = 0x800000
  · have carried : (m + 1) / 0x800000 = m / 0x800000 + 1 ∧ (m + 1) % 0x800000 = 0 := by omega
    simp only [quanta, carried.1, carried.2]
    cases biased : m / 0x800000 with
    | zero => simp; omega
    | succ e =>
      have power : 0 < Nat.pow 2 e := Nat.pow_pos (by decide)
      have double : Nat.pow 2 (e + 1) = Nat.pow 2 e * 2 := rfl
      simp only [Nat.add_sub_cancel, if_neg (Nat.succ_ne_zero _), double]
      nlinarith
  · have within : (m + 1) / 0x800000 = m / 0x800000 ∧
        (m + 1) % 0x800000 = m % 0x800000 + 1 := by omega
    simp only [quanta, within.1, within.2]
    split
    · omega
    · have power : 0 < Nat.pow 2 (m / 0x800000 - 1) := Nat.pow_pos (by decide)
      exact Nat.mul_lt_mul_of_pos_right (by omega) power

theorem quantaMono : StrictMono quanta := strictMono_nat_of_lt_succ quantaStep

def topMagnitude : Nat := 0x7f800000

theorem magnitudeBound (number : a.isNaN = false) : a.magnitude ≤ topMagnitude := by
  simpa [isNaN, topMagnitude] using number

noncomputable def size (m : Nat) : EReal :=
  if m = topMagnitude then ⊤ else ((quanta m * (2 : ℝ) ^ (-149 : ℤ) : ℝ) : EReal)

theorem sizeZero : size 0 = 0 := by
  simp [size, topMagnitude, quanta]

theorem sizeMono : StrictMonoOn size (Set.Iic topMagnitude) := by
  intro m _ n bound below
  have finite : m ≠ topMagnitude := Nat.ne_of_lt (Nat.lt_of_lt_of_le below bound)
  rw [size, if_neg finite]
  by_cases top : n = topMagnitude
  · rw [size, if_pos top]
    exact EReal.coe_lt_top _
  · rw [size, if_neg top, EReal.coe_lt_coe_iff]
    have scaled : (quanta m : ℝ) < quanta n := by exact_mod_cast quantaMono below
    exact mul_lt_mul_of_pos_right scaled (by positivity)

theorem decodedParts (s : Score) :
    s.bits.toNat % Nat.pow 2 23 = s.magnitude % 0x800000 ∧
    s.bits.toNat / Nat.pow 2 23 % Nat.pow 2 8 = s.magnitude / 0x800000 ∧
    (s.bits.toNat / (Nat.pow 2 23 * Nat.pow 2 8) % 2 == 1) = s.negative := by
  have word := wordSplits s
  have bound := magnitudeBelow s
  rw [show Nat.pow 2 23 = 0x800000 from rfl, show Nat.pow 2 8 = 256 from rfl]
  refine ⟨?_, ?_, ?_⟩
  · split at word <;> omega
  · split at word <;> omega
  · cases sign : s.negative <;> simp [sign] at word ⊢ <;> omega

theorem quantaScaled {significand exponent : Nat} :
    ((0x800000 + significand : Nat) : ℝ) * (2 : ℝ) ^ (-149 + ((exponent + 1 : Nat) - 1 : ℤ)) =
      ((0x800000 + significand) * Nat.pow 2 exponent : Nat) * (2 : ℝ) ^ (-149 : ℤ) := by
  have power : (2 : ℝ) ^ (-149 + ((exponent + 1 : Nat) - 1 : ℤ)) =
      2 ^ exponent * (2 : ℝ) ^ (-149 : ℤ) := by
    rw [← zpow_natCast, ← zpow_add₀ (by norm_num)]
    congr 1
    omega
  rw [power, Nat.cast_mul, show Nat.pow 2 exponent = 2 ^ exponent from rfl, Nat.cast_pow]
  push_cast
  ring

theorem valueSplits (number : a.isNaN = false) :
    a.value = if a.negative then -size a.magnitude else size a.magnitude := by
  obtain ⟨fraction, biased, sign⟩ := decodedParts a
  have bound := magnitudeBound number
  have lowest : Binary.binary32.lowestExponent = -149 := by decide
  simp only [value, binary, Binary.decode, lowest, size, topMagnitude] at *
  simp only [Binary.binary32, fraction, biased, sign, show Nat.pow 2 8 - 1 = 255 from rfl,
    show Nat.pow 2 23 = 0x800000 from rfl]
  by_cases top : a.magnitude = 0x7f800000
  · have full : a.magnitude / 0x800000 = 255 ∧ a.magnitude % 0x800000 = 0 := by omega
    rw [if_pos full.1, if_pos full.2]
    simp only [Binary.value, top, if_true, EReal.neg_top]
  · have finite : a.magnitude / 0x800000 ≠ 255 := by omega
    rw [if_neg finite]
    simp only [top, if_false]
    cases exponent : a.magnitude / 0x800000 with
    | zero =>
      simp only [exponent, quanta, if_true, Binary.value]
      split <;> simp
    | succ e =>
      simp only [exponent, quanta, if_neg (Nat.succ_ne_zero e), Binary.value, quantaScaled,
        Nat.add_sub_cancel]
      split <;> simp

theorem sizePositive {m : Nat} (bound : m ≤ topMagnitude) (positive : 0 < m) : 0 < size m :=
  sizeZero ▸ sizeMono (Nat.zero_le topMagnitude) bound positive

theorem sizeNonnegative {m : Nat} (bound : m ≤ topMagnitude) : 0 ≤ size m :=
  sizeZero ▸ (sizeMono.le_iff_le (Nat.zero_le topMagnitude) bound).mpr m.zero_le

theorem sizeVanishes {m : Nat} (bound : m ≤ topMagnitude) (vanishes : size m ≤ 0) : m = 0 := by
  by_contra positive
  exact absurd vanishes (not_le.mpr (sizePositive bound (Nat.pos_of_ne_zero positive)))

theorem valueLe (first : a.isNaN = false) (second : b.isNaN = false) :
    a.value ≤ b.value ↔ a.level ≤ b.level := by
  have boundA := magnitudeBound first
  have boundB := magnitudeBound second
  rw [valueSplits first, valueSplits second]
  simp only [level]
  cases a.negative <;> cases b.negative <;> simp only [Bool.false_eq_true, if_false, if_true]
  · rw [sizeMono.le_iff_le boundA boundB]
    omega
  · -- only the two zeros stand this way round
    constructor
    · intro below
      have opposite : 0 ≤ -size b.magnitude := (sizeNonnegative boundA).trans below
      have zeroB := sizeVanishes boundB (EReal.neg_nonneg.mp opposite)
      rw [zeroB, sizeZero, neg_zero] at below
      have zeroA := sizeVanishes boundA below
      omega
    · intro below
      have zeros : a.magnitude = 0 ∧ b.magnitude = 0 := by omega
      rw [zeros.1, zeros.2, sizeZero, neg_zero]
  · have opposite : -size a.magnitude ≤ 0 := by
      simpa using EReal.neg_le_neg_iff.mpr (sizeNonnegative boundA)
    have ordered : -size a.magnitude ≤ size b.magnitude :=
      opposite.trans (sizeNonnegative boundB)
    simp only [ordered, true_iff]
    omega
  · rw [EReal.neg_le_neg_iff, sizeMono.le_iff_le boundB boundA]
    omega

theorem valueLt (first : a.isNaN = false) (second : b.isNaN = false) :
    a.value < b.value ↔ a.level < b.level := by
  rw [← not_le, valueLe second first, Int.not_le]

theorem valueEq (first : a.isNaN = false) (second : b.isNaN = false) :
    a.value = b.value ↔ a.level = b.level := by
  rw [le_antisymm_iff, valueLe first second, valueLe second first, Int.le_antisymm_iff]

/-! ### The total order -/

def negativeZero : Score := ⟨0x80000000⟩

def positiveZero : Score := ⟨0⟩

/- The total order of the standard, case by case. Numbers go by what they stand for, and the zeros
by their sign. A NaN stands beyond every number on the side of its sign, and further out the larger
its payload. -/
inductive Under : Score → Score → Prop where
  | number {a b : Score} (first : a.isNaN = false) (second : b.isNaN = false)
      (less : a.value < b.value) : Under a b
  | zeros : Under negativeZero positiveZero
  | leastNaN {a b : Score} (nan : a.isNaN = true) (sign : a.negative = true)
      (other : b.isNaN = false ∨ b.negative = false) : Under a b
  | greatestNaN {a b : Score} (nan : b.isNaN = true) (sign : b.negative = false)
      (other : a.isNaN = false ∨ a.negative = true) : Under a b
  | negativePayload {a b : Score} (first : a.isNaN = true ∧ a.negative = true)
      (second : b.isNaN = true ∧ b.negative = true) (larger : b.magnitude < a.magnitude) :
      Under a b
  | positivePayload {a b : Score} (first : a.isNaN = true ∧ a.negative = false)
      (second : b.isNaN = true ∧ b.negative = false) (smaller : a.magnitude < b.magnitude) :
      Under a b

theorem beyondNumbers (nan : a.isNaN = true) (number : b.isNaN = false) :
    b.magnitude < a.magnitude := by
  simp only [isNaN, decide_eq_true_eq, decide_eq_false_iff_not] at nan number
  omega

theorem placeBelow : a.place < b.place ↔
    a.negative = true ∧ b.negative = false ∨
    a.negative = true ∧ b.negative = true ∧ b.magnitude < a.magnitude ∨
    a.negative = false ∧ b.negative = false ∧ a.magnitude < b.magnitude := by
  simp only [place]
  cases a.negative <;> cases b.negative <;> simp <;> omega

theorem zerosOfLevel (same : a.level = b.level) (apart : a.place < b.place) :
    a = negativeZero ∧ b = positiveZero := by
  have zeros : a.place = -1 ∧ b.place = 0 := by
    simp only [level, place] at same apart ⊢
    split at same <;> split at same <;> simp_all
  exact ⟨placeInjective (zeros.1.trans (by decide)), placeInjective (zeros.2.trans (by decide))⟩

theorem placeOfUnder (under : a.Under b) : a.place < b.place := by
  cases under with
  | number first second less =>
    have below := (valueLt first second).mp less
    by_contra above
    have ordered := levelOfPlace (Int.not_lt.mp above)
    omega
  | zeros => decide
  | leastNaN nan sign other =>
    cases signB : b.negative with
    | false => exact placeBelow.mpr (.inl ⟨sign, signB⟩)
    | true =>
      have number : b.isNaN = false := by simpa [signB] using other
      exact placeBelow.mpr (.inr (.inl ⟨sign, signB, beyondNumbers nan number⟩))
  | greatestNaN nan sign other =>
    cases signA : a.negative with
    | true => exact placeBelow.mpr (.inl ⟨signA, sign⟩)
    | false =>
      have number : a.isNaN = false := by simpa [signA] using other
      exact placeBelow.mpr (.inr (.inr ⟨signA, sign, beyondNumbers nan number⟩))
  | negativePayload first second larger =>
    exact placeBelow.mpr (.inr (.inl ⟨first.2, second.2, larger⟩))
  | positivePayload first second smaller =>
    exact placeBelow.mpr (.inr (.inr ⟨first.2, second.2, smaller⟩))

theorem underOfPlace (below : a.place < b.place) : a.Under b := by
  cases first : a.isNaN with
  | false =>
    cases second : b.isNaN with
    | false =>
      rcases (levelOfPlace below.le).lt_or_eq with less | tie
      · exact .number first second ((valueLt first second).mpr less)
      · obtain ⟨rfl, rfl⟩ := zerosOfLevel tie below
        exact .zeros
    | true =>
      have beyond := beyondNumbers second first
      obtain ⟨_, sign⟩ | ⟨_, _, less⟩ | ⟨_, sign, _⟩ := placeBelow.mp below
      · exact .greatestNaN second sign (.inl first)
      · omega
      · exact .greatestNaN second sign (.inl first)
  | true =>
    cases second : b.isNaN with
    | false =>
      have beyond := beyondNumbers first second
      obtain ⟨sign, _⟩ | ⟨sign, _, _⟩ | ⟨_, _, less⟩ := placeBelow.mp below
      · exact .leastNaN first sign (.inl second)
      · exact .leastNaN first sign (.inl second)
      · omega
    | true =>
      obtain ⟨sign, signB⟩ | ⟨sign, signB, larger⟩ | ⟨sign, signB, smaller⟩ := placeBelow.mp below
      · exact .leastNaN first sign (.inr signB)
      · exact .negativePayload ⟨first, sign⟩ ⟨second, signB⟩ larger
      · exact .positivePayload ⟨first, sign⟩ ⟨second, signB⟩ smaller

theorem underExact : a.Under b ↔ a.place < b.place := ⟨placeOfUnder, underOfPlace⟩

end Score
end EvalReport
