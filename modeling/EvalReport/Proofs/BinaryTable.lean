import EvalReport.Proofs.Exact
import EvalReport.Proofs.Independence
import Mathlib.Tactic.Linarith
import Mathlib.Tactic.Ring

/-! Two labels. The examples over a catalogue of two distinct names fall into four cells, by the
label they predict and the label they expect. A tracker holds the two cells of wrong predictions
twice, once under either name, so its counts for the first name and the hits of the second are the
whole table, and the correlation of a report is that of the table, whichever label plays the
positive class. -/
namespace EvalReport

open Arithmetic

/-! ### The correlation of four counts -/

namespace Counts

def numerator (c : Counts) : ℤ :=
  c.truePositives * c.trueNegatives - c.falsePositives * c.falseNegatives

def product (c : Counts) : ℕ :=
  (c.truePositives + c.falsePositives) * (c.truePositives + c.falseNegatives) *
    (c.trueNegatives + c.falsePositives) * (c.trueNegatives + c.falseNegatives)

def turned (c : Counts) : Counts where
  truePositives := c.trueNegatives
  falsePositives := c.falseNegatives
  falseNegatives := c.falsePositives
  trueNegatives := c.truePositives

def correlation {α : Type} [Arithmetic α] (c : Counts) : α :=
  Ranking.matthews c.truePositives c.falsePositives c.falseNegatives c.trueNegatives

theorem numeratorTurned (c : Counts) : c.turned.numerator = c.numerator := by
  simp only [numerator, turned]
  ring

theorem productTurned (c : Counts) : c.turned.product = c.product := by
  simp only [product, turned]
  ring

/- A row of the table times the other row holds both diagonals, and so do the columns. -/
theorem numeratorBound (c : Counts) : c.numerator ^ 2 ≤ c.product := by
  obtain ⟨tp, fp, fn, tn⟩ := c
  have rows : tp * tn + fp * fn ≤ (tp + fp) * (tn + fn) := by
    rw [show (tp + fp) * (tn + fn) = tp * tn + fp * fn + (tp * fn + fp * tn) by ring]
    exact Nat.le_add_right _ _
  have columns : tp * tn + fp * fn ≤ (tp + fn) * (tn + fp) := by
    rw [show (tp + fn) * (tn + fp) = tp * tn + fp * fn + (tp * fp + fn * tn) by ring]
    exact Nat.le_add_right _ _
  have squared : (tp * tn + fp * fn) ^ 2 ≤ (⟨tp, fp, fn, tn⟩ : Counts).product :=
    calc (tp * tn + fp * fn) ^ 2
      _ = (tp * tn + fp * fn) * (tp * tn + fp * fn) := sq _
      _ ≤ (tp + fp) * (tn + fn) * ((tp + fn) * (tn + fp)) := Nat.mul_le_mul rows columns
      _ = (⟨tp, fp, fn, tn⟩ : Counts).product := by simp only [product]; ring
  have crossed : (0 : ℤ) ≤ (tp * tn) * (fp * fn) := by positivity
  calc ((tp : ℤ) * tn - fp * fn) ^ 2
    _ ≤ ((tp : ℤ) * tn + fp * fn) ^ 2 := by linarith [crossed]
    _ ≤ (⟨tp, fp, fn, tn⟩ : Counts).product := by exact_mod_cast squared

theorem correlationExact (c : Counts) :
    (c.correlation : EReal) = ((c.numerator / Real.sqrt c.product : ℝ) : EReal) := by
  have top : (c.truePositives * c.trueNegatives - c.falsePositives * c.falseNegatives : EReal) =
      ((c.numerator : ℝ) : EReal) := by
    simp [numerator]
  have under : ((c.truePositives + c.falsePositives) * (c.truePositives + c.falseNegatives) *
      (c.trueNegatives + c.falsePositives) * (c.trueNegatives + c.falseNegatives) : EReal) =
      ((c.product : ℝ) : EReal) := by
    simp [product]
  change ratio
    (c.truePositives * c.trueNegatives - c.falsePositives * c.falseNegatives : EReal)
    (sqrt ((c.truePositives + c.falsePositives) * (c.truePositives + c.falseNegatives) *
      (c.trueNegatives + c.falsePositives) * (c.trueNegatives + c.falseNegatives))) = _
  rw [top, under]
  simp only [ratio, isZero, sqrt, zero, ofCount, EReal.coe_ne_top, if_false, EReal.toReal_coe,
    decide_eq_true_eq, EReal.coe_eq_zero]
  split
  · rename_i vanishes
    simp [vanishes]
  · rw [EReal.coe_div]

theorem correlationRanged (c : Counts) (positive : c.product ≠ 0) :
    (-1 : EReal) ≤ c.correlation ∧ (c.correlation : EReal) ≤ 1 := by
  have root : 0 < Real.sqrt c.product :=
    Real.sqrt_pos.mpr (Nat.cast_pos.mpr (Nat.pos_of_ne_zero positive))
  have bound : |(c.numerator : ℝ)| ≤ Real.sqrt c.product :=
    Real.abs_le_sqrt (by exact_mod_cast c.numeratorBound)
  have unit : |(c.numerator / Real.sqrt c.product : ℝ)| ≤ 1 := by
    rw [abs_div, abs_of_pos root, div_le_one root]
    exact bound
  rw [c.correlationExact, ← EReal.coe_one, ← EReal.coe_neg, EReal.coe_le_coe_iff,
    EReal.coe_le_coe_iff]
  exact abs_le.mp unit

structure Correlates (c : Counts) : Prop where
  bounded : c.numerator ^ 2 ≤ c.product
  value : (c.correlation : EReal) = ((c.numerator / Real.sqrt c.product : ℝ) : EReal)
  ranged : c.product ≠ 0 → (-1 : EReal) ≤ c.correlation ∧ (c.correlation : EReal) ≤ 1
  vanishing : c.product = 0 → (c.correlation : EReal) = 0
  numerator : c.turned.numerator = c.numerator
  product : c.turned.product = c.product
  turned : (c.turned.correlation : EReal) = c.correlation

theorem correlates (c : Counts) : c.Correlates where
  bounded := c.numeratorBound
  value := c.correlationExact
  ranged := c.correlationRanged
  vanishing := by
    intro none
    simp [c.correlationExact, none]
  numerator := c.numeratorTurned
  product := c.productTurned
  turned := by rw [correlationExact, correlationExact, numeratorTurned, productTurned]

end Counts

/-! ### The cells -/

namespace Example

variable {x : Example .singleLabel} {label other : Nat}

theorem otherOnly {label other one : Nat} (two : label + other = 1) (below : one < 2) :
    [one].contains other = !([one].contains label) := by
  rw [Bool.eq_not, Ne, Bool.eq_iff_iff, List.contains_iff_mem, List.contains_iff_mem,
    List.mem_singleton, List.mem_singleton]
  omega

theorem turnedOnly {label other one : Nat} (two : label + other = 1) (below : one < 2) :
    [1 - one].contains label = [one].contains other := by
  rw [Bool.eq_iff_iff, List.contains_iff_mem, List.contains_iff_mem, List.mem_singleton,
    List.mem_singleton]
  omega

theorem predictedOnce (inside : ∀ label ∈ x.referenced, label < 2) (two : label + other = 1) :
    x.predicts other = !x.predicts label :=
  otherOnly two (inside x.predicted List.mem_cons_self)

theorem expectedOnce (inside : ∀ label ∈ x.referenced, label < 2) (two : label + other = 1) :
    x.expects other = !x.expects label :=
  otherOnly two (inside x.expected (List.mem_cons_of_mem _ List.mem_cons_self))

def exchanged (x : Example .singleLabel) : Example .singleLabel :=
  ⟨x.scores.map List.reverse, (1 - x.predicted : Nat), (1 - x.expected : Nat)⟩

theorem exchangedPredicts (inside : ∀ label ∈ x.referenced, label < 2)
    (two : label + other = 1) : x.exchanged.predicts label = x.predicts other :=
  turnedOnly two (inside x.predicted List.mem_cons_self)

theorem exchangedExpects (inside : ∀ label ∈ x.referenced, label < 2)
    (two : label + other = 1) : x.exchanged.expects label = x.expects other :=
  turnedOnly two (inside x.expected (List.mem_cons_of_mem _ List.mem_cons_self))

theorem exchangedFits (inside : ∀ label ∈ x.referenced, label < 2) :
    x.exchanged.Fits 2 ↔ x.Fits 2 := by
  constructor
  · intro fits
    obtain ⟨row, present, wide⟩ := fits.scored
    obtain ⟨first, same, rfl⟩ := Option.map_eq_some_iff.mp present
    exact ⟨inside, first, same, by rw [← wide, List.length_reverse]⟩
  · intro fits
    obtain ⟨row, present, wide⟩ := fits.scored
    have below : ∀ label ∈ x.exchanged.referenced, label < 2 := by
      intro label member
      change label ∈ [1 - (x.predicted : Nat), 1 - (x.expected : Nat)] at member
      grind
    exact ⟨below, row.reverse, by simp [exchanged, present], by simp [wide]⟩

end Example

namespace Report

variable {xs : List (Example .singleLabel)}

def cell (xs : List (Example .singleLabel)) (predicted expected : Nat) : Nat :=
  xs.countP fun x => x.predicts predicted && x.expects expected

def table (xs : List (Example .singleLabel)) : Counts where
  truePositives := cell xs 0 0
  falsePositives := cell xs 0 1
  falseNegatives := cell xs 1 0
  trueNegatives := cell xs 1 1

theorem singleMiss (x : Example .singleLabel) (label : Nat) :
    x.confusions.count (label, .falseNegative) =
      if !x.predicts label && x.expects label then 1 else 0 := by
  have balance := x.expectedCounted label
  have expected : x.expectedLabels.count label = if x.expects label then 1 else 0 := by
    change ([x.expected] : List Nat).count label =
      if ([x.expected] : List Nat).contains label then 1 else 0
    generalize (x.expected : Nat) = expected
    by_cases here : expected = label
    · simp [here]
    · simp [here, Ne.symm here]
  rw [singleHit, expected] at balance
  revert balance
  cases x.predicts label <;> cases x.expects label <;> simp

theorem confusionCell {label predicted expected : Nat} {o : Outcome}
    (each : ∀ x ∈ xs, x.confusions.count (label, o) =
      if x.predicts predicted && x.expects expected then 1 else 0) :
    (xs.flatMap (·.confusions)).count (label, o) = cell xs predicted expected := by
  induction xs with
  | nil => rfl
  | cons x rest ih =>
    obtain ⟨here, later⟩ := List.forall_mem_cons.mp each
    rw [List.flatMap_cons, List.count_append, here, ih later, cell, cell, List.countP_cons,
      Nat.add_comm]

section TwoLabels

variable (inside : ∀ x ∈ xs, ∀ label ∈ x.referenced, label < 2)

include inside

theorem cellsCover : cell xs 0 0 + cell xs 0 1 + cell xs 1 0 + cell xs 1 1 = xs.length := by
  induction xs with
  | nil => rfl
  | cons x rest ih =>
    obtain ⟨here, later⟩ := List.forall_mem_cons.mp inside
    have predicted : x.predicts 1 = !x.predicts 0 := Example.predictedOnce here rfl
    have expected : x.expects 1 = !x.expects 0 := Example.expectedOnce here rfl
    have covered := ih later
    simp only [cell, List.countP_cons, predicted, expected, List.length_cons] at covered ⊢
    cases x.predicts 0 <;> cases x.expects 0 <;> simp <;> omega

theorem offsetCells {label other : Nat} (two : label + other = 1) :
    (xs.flatMap (·.confusions)).count (label, .truePositive) = cell xs label label ∧
    (xs.flatMap (·.confusions)).count (label, .falsePositive) = cell xs label other ∧
    (xs.flatMap (·.confusions)).count (label, .falseNegative) = cell xs other label := by
  refine ⟨confusionCell fun x _ => singleHit x label, confusionCell fun x member => ?_,
    confusionCell fun x member => ?_⟩
  · rw [x.chargedCounted, singleCharged, Example.expectedOnce (inside x member) two]
  · rw [singleMiss, Example.predictedOnce (inside x member) two]

theorem cellExchanged {predicted expected predicted' expected' : Nat}
    (two : predicted + predicted' = 1) (two' : expected + expected' = 1) :
    cell (xs.map Example.exchanged) predicted expected = cell xs predicted' expected' := by
  rw [cell, cell, List.countP_map]
  refine List.countP_congr fun x member => ?_
  rw [Function.comp_apply, Example.exchangedPredicts (inside x member) two,
    Example.exchangedExpects (inside x member) two']

theorem tableExchanged : table (xs.map Example.exchanged) = (table xs).turned := by
  simp only [table, Counts.turned, Counts.mk.injEq]
  exact ⟨cellExchanged inside rfl rfl, cellExchanged inside rfl rfl, cellExchanged inside rfl rfl,
    cellExchanged inside rfl rfl⟩

end TwoLabels

/-! ### Tracker and report -/

structure Tabulated (xs : List (Example .singleLabel)) (first second : Counts) : Prop where
  truePositives : first.truePositives = cell xs 0 0
  falsePositives : first.falsePositives = cell xs 0 1
  falseNegatives : first.falseNegatives = cell xs 1 0
  trueNegatives : second.truePositives = cell xs 1 1
  wrong : first.falsePositives = second.falseNegatives
  missed : first.falseNegatives = second.falsePositives
  whole : first.truePositives + first.falsePositives + first.falseNegatives +
    second.truePositives = xs.length

theorem tabulated {a b : String} (distinct : a ≠ b)
    (inside : ∀ x ∈ xs, ∀ label ∈ x.referenced, label < 2) :
    Tabulated xs ((tally [a, b] xs).counts a) ((tally [a, b] xs).counts b) := by
  have names : [a, b].Nodup := by simpa using distinct
  have first : ∀ o, ((tally [a, b] xs).counts a).of o =
      (xs.flatMap (·.confusions)).count (0, o) := tallyCounts names inside rfl
  have second : ∀ o, ((tally [a, b] xs).counts b).of o =
      (xs.flatMap (·.confusions)).count (1, o) := tallyCounts names inside rfl
  obtain ⟨hits, wrong, missed⟩ := offsetCells inside (show 0 + 1 = 1 from rfl)
  obtain ⟨hits', wrong', missed'⟩ := offsetCells inside (show 1 + 0 = 1 from rfl)
  have truePositives := (first .truePositive).trans hits
  have falsePositives := (first .falsePositive).trans wrong
  have falseNegatives := (first .falseNegative).trans missed
  have trueNegatives := (second .truePositive).trans hits'
  refine ⟨truePositives, falsePositives, falseNegatives, trueNegatives,
    falsePositives.trans ((second .falseNegative).trans missed').symm,
    falseNegatives.trans ((second .falsePositive).trans wrong').symm, ?_⟩
  rw [← cellsCover inside, ← truePositives, ← falsePositives, ← falseNegatives, ← trueNegatives]
  rfl

variable {α : Type} [Arithmetic α]

theorem correlationFed {a b : String} {tracker : Tracker}
    (held : Tabulated xs (tracker.counts a) (tracker.counts b)) :
    (binaryMcc [a, b] tracker : α) = (table xs).correlation ∧
      (binaryMcc [b, a] tracker : α) = (table xs).turned.correlation := by
  constructor
  · change Ranking.matthews (tracker.counts a).truePositives (tracker.counts a).falsePositives
      (tracker.counts a).falseNegatives (tracker.counts b).truePositives = _
    rw [held.truePositives, held.falsePositives, held.falseNegatives, held.trueNegatives]
    rfl
  · change Ranking.matthews (tracker.counts b).truePositives (tracker.counts b).falsePositives
      (tracker.counts b).falseNegatives (tracker.counts a).truePositives = _
    rw [← held.missed, ← held.wrong, held.truePositives, held.falsePositives,
      held.falseNegatives, held.trueNegatives]
    rfl

def Correlation (labels : List String) (xs : List (Example .singleLabel)) (loss : Option α)
    (options : ReportOptions α) (m : α) : Prop :=
  ∃ r log, compute labels xs loss options = .ok (r, log) ∧ r.mcc = some m

theorem correlationReported {a b : String} (distinct : a ≠ b) (xs : List (Example .singleLabel))
    (loss : Option α) (options : ReportOptions α) (m : α) :
    Correlation [a, b] xs loss options m ↔
      options.soft = true ∧ (∀ x ∈ xs, x.Fits 2) ∧ m = (table xs).correlation := by
  have given : (∀ x ∈ xs, x.Fits 2) →
      (binaryMcc [a, b] (tally [a, b] xs) : α) = (table xs).correlation := by
    intro fits
    exact (correlationFed (tabulated distinct fun x member => (fits x member).referenced)).1
  constructor
  · intro found
    obtain ⟨r, log, made, present⟩ := found
    have referenced := computeReferenced made
    obtain ⟨_, rfl⟩ | ⟨_, _, rfl⟩ | ⟨rows, soft, read, rfl⟩ := computeCases made
    · contradiction
    · contradiction
    · have fits : ∀ x ∈ xs, x.Fits 2 := fun x member =>
        ⟨referenced x member, scoreRowsFound read x member⟩
      rw [(withScoresBinary rfl rfl ..).1, given fits] at present
      exact ⟨(Bool.and_eq_true_iff.mp soft).2, fits, (Option.some.inj present).symm⟩
  · intro found
    obtain ⟨soft, fits, rfl⟩ := found
    refine ⟨_, _, computeFits rfl soft fits loss, ?_⟩
    rw [(withScoresBinary rfl rfl ..).1, given fits]

theorem correlationExchanged {a b : String} (distinct : a ≠ b)
    (inside : ∀ x ∈ xs, ∀ label ∈ x.referenced, label < 2) (loss : Option EReal)
    (options : ReportOptions EReal) (m : EReal) :
    Correlation [b, a] (xs.map Example.exchanged) loss options m ↔
      Correlation [a, b] xs loss options m := by
  have fits : (∀ y ∈ xs.map Example.exchanged, y.Fits 2) ↔ ∀ x ∈ xs, x.Fits 2 := by
    rw [List.forall_mem_map]
    exact forall₂_congr fun x member => Example.exchangedFits (inside x member)
  rw [correlationReported distinct.symm, correlationReported distinct, fits,
    tableExchanged inside, (table xs).correlates.turned]

structure Correlated (a b : String) (xs : List (Example .singleLabel)) : Prop where
  tabulated : Tabulated xs ((tally [a, b] xs).counts a) ((tally [a, b] xs).counts b)
  fed : ∀ {α : Type} [Arithmetic α],
    (binaryMcc [a, b] (tally [a, b] xs) : α) = (table xs).correlation ∧
      (binaryMcc [b, a] (tally [a, b] xs) : α) = (table xs).turned.correlation
  reported : ∀ {α : Type} [Arithmetic α] (loss : Option α) (options : ReportOptions α) (m : α),
    Correlation [a, b] xs loss options m ↔
      options.soft = true ∧ (∀ x ∈ xs, x.Fits 2) ∧ m = (table xs).correlation
  correlates : (table xs).Correlates
  exchanged : ∀ (loss : Option EReal) (options : ReportOptions EReal) (m : EReal),
    Correlation [b, a] (xs.map Example.exchanged) loss options m ↔
      Correlation [a, b] xs loss options m

end Report

open Report in
theorem correlationOfTable {a b : String} (distinct : a ≠ b) {xs : List (Example .singleLabel)}
    (referenced : ∀ x ∈ xs, ∀ label ∈ x.referenced, label < 2) : Correlated a b xs where
  tabulated := tabulated distinct referenced
  fed := correlationFed (tabulated distinct referenced)
  reported := correlationReported distinct xs
  correlates := (table xs).correlates
  exchanged := correlationExchanged distinct referenced

def onceWrong : List (Example .singleLabel) :=
  [⟨some [⟨0⟩, ⟨0⟩], 0, 0⟩, ⟨some [⟨0⟩, ⟨0⟩], 1, 1⟩, ⟨some [⟨0⟩, ⟨0⟩], 0, 0⟩,
    ⟨some [⟨0⟩, ⟨0⟩], 0, 1⟩]

open Report in
theorem onceWrongCorrelated :
    ((tally ["no", "yes"] onceWrong).counts "yes").falseNegatives = 1 ∧
    Correlation ["no", "yes"] onceWrong none ⟨true, [], true⟩ ((2 / Real.sqrt 12 : ℝ) : EReal) ∧
    Correlation ["yes", "no"] (onceWrong.map Example.exchanged) none ⟨true, [], true⟩
      ((2 / Real.sqrt 12 : ℝ) : EReal) := by
  have referenced : ∀ x ∈ onceWrong, ∀ label ∈ x.referenced, label < 2 := by decide
  have correlated : Correlated "no" "yes" onceWrong :=
    correlationOfTable (by decide) referenced
  have cells : table onceWrong = ⟨2, 1, 0, 1⟩ := by decide
  have scored : ∀ x ∈ onceWrong, x.scores = some [⟨0⟩, ⟨0⟩] := by decide
  have fits : ∀ x ∈ onceWrong, x.Fits 2 := fun x member =>
    ⟨referenced x member, _, scored x member, rfl⟩
  have value : ((table onceWrong).correlation : EReal) = ((2 / Real.sqrt 12 : ℝ) : EReal) := by
    have numerator : (table onceWrong).numerator = 2 := by rw [cells]; rfl
    have product : (table onceWrong).product = 12 := by rw [cells]; rfl
    rw [correlated.correlates.value, numerator, product]
    norm_num
  have reported : Correlation ["no", "yes"] onceWrong none ⟨true, [], true⟩
      ((2 / Real.sqrt 12 : ℝ) : EReal) :=
    (correlated.reported none ⟨true, [], true⟩ _).mpr ⟨rfl, fits, value.symm⟩
  refine ⟨?_, reported, (correlated.exchanged none _ _).mpr reported⟩
  rw [← correlated.tabulated.wrong, correlated.tabulated.falsePositives]
  exact congrArg Counts.falsePositives cells

end EvalReport
