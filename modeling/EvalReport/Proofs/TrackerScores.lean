import EvalReport.Proofs.OrderFree
import EvalReport.Proofs.Perfection
import Mathlib.Algebra.Order.BigOperators.Group.Finset
import Mathlib.Data.Finset.Lattice.Fold

/-! Trackers as sums, and their scores. Only how much was recorded counts, in whatever order and
pieces; counters are natural numbers, so none runs over. In the fractions the scores of a label are
shares of its counts, with the F1 between the other two, and an average lies among the values of the
labels that something was recorded for. -/
namespace EvalReport

open Arithmetic

/-! ### The same updates in another order, and in fewer pieces -/

inductive Regrouped : List Update → List Update → Prop where
  | reordered {us vs : List Update} (perm : us.Perm vs) : Regrouped us vs
  | merged (label : String) (outcome : Outcome) (m n : Nat) (rest : List Update) :
      Regrouped (⟨label, outcome, m⟩ :: ⟨label, outcome, n⟩ :: rest)
        (⟨label, outcome, m + n⟩ :: rest)
  | trans {us vs ws : List Update} (first : Regrouped us vs) (second : Regrouped vs ws) :
      Regrouped us ws

theorem Counts.recordMerged (c : Counts) (o : Outcome) (m n : Nat) :
    (c.record o m).record o n = c.record o (m + n) := by
  cases o <;> simp [Counts.record, Nat.add_assoc]

namespace Tracker

theorem recordMerged (t : Tracker) (label : String) (o : Outcome) (m n : Nat) :
    (t.record label o m).record label o n = t.record label o (m + n) := by
  apply Table.eqOfFind
  intro name
  simp only [record, Table.findAlter]
  by_cases asked : label = name <;> simp [asked, Counts.recordMerged]

theorem recordAllRegrouped {us vs : List Update} (regrouped : Regrouped us vs) (t : Tracker) :
    t.recordAll us = t.recordAll vs := by
  induction regrouped generalizing t with
  | reordered perm =>
    exact perm.foldl_eq' (fun _ _ _ _ tracker => tracker.recordSwap _ _ _ _ _ _) t
  | merged label outcome m n rest =>
    exact congrArg (recordAll · rest) (t.recordMerged label outcome m n)
  | trans _ _ first second => exact (first t).trans (second t)

def touched (updates : List Update) : Finset String := (updates.map (·.label)).toFinset

theorem keyTouched {updates : List Update} {name : String} :
    name ∈ (recordAll ∅ updates).keys ↔ name ∈ touched updates := by
  rw [Table.keyFound, foundRecordAll]
  have nothing : ((∅ : Tracker).find? name).isSome = false := rfl
  simp [nothing, touched]

theorem keysTouched (updates : List Update) :
    (recordAll ∅ updates).keys.toFinset = touched updates := by
  ext name
  rw [List.mem_toFinset, keyTouched]

theorem sizeTouched (updates : List Update) :
    (recordAll ∅ updates).size = (touched updates).card := by
  rw [← keysTouched, List.toFinset_card_of_nodup (Table.keysDistinct _), Table.keys,
    List.length_map, Table.size]

theorem countsRecorded (updates : List Update) (name : String) (p : Outcome) :
    ((recordAll ∅ updates).counts name).of p =
      ((updates.filter fun u => u.label = name ∧ u.outcome = p).map (·.count)).sum := by
  rw [countsRecordAll]
  exact (congrArg (· + _) (Counts.ofNone p)).trans (Nat.zero_add _)

theorem perLabelTouched {α : Type} [Arithmetic α] (updates : List Update) (name : String) :
    ((recordAll ∅ updates).scores true : HardScores α).perLabel.find? name =
      if name ∈ touched updates then some ((recordAll ∅ updates).counts name).scores else none := by
  have listed := (Table.keyFound (recordAll ∅ updates) name).symm.trans keyTouched
  rw [scores, if_pos rfl, Table.findMap, counts]
  cases found : (recordAll ∅ updates).find? name with
  | none => simp [← listed, found]
  | some c => simp [← listed, found]

end Tracker

/-! ### Scores of a label -/

structure Counts.Rated (c : Counts) (s : LabelScores ℚ) : Prop where
  precision : s.precision = c.truePositives / (c.truePositives + c.falsePositives)
  recallRate : s.recallRate = c.truePositives / (c.truePositives + c.falseNegatives)
  f1 : s.f1 = if c.truePositives = 0 then (0 : ℚ) else
    (2 * c.truePositives / (2 * c.truePositives + c.falsePositives + c.falseNegatives) : ℚ)
  precisionShare : 0 ≤ s.precision ∧ s.precision ≤ 1
  recallShare : 0 ≤ s.recallRate ∧ s.recallRate ≤ 1
  f1Share : 0 ≤ s.f1 ∧ s.f1 ≤ 1
  between : min s.precision s.recallRate ≤ s.f1 ∧ s.f1 ≤ max s.precision s.recallRate

theorem partOfWhole (part rest : Nat) :
    0 ≤ (part / (part + rest) : ℚ) ∧ (part / (part + rest) : ℚ) ≤ 1 :=
  ⟨by positivity, div_le_one_of_le₀ (by simp) (by positivity)⟩

/- The more errors of one kind, the lower the share; the F1 is the share at their mean. -/
theorem shareFalls (hits : Nat) {fewer more : Nat} (ordered : fewer ≤ more) :
    (hits / (hits + more) : ℚ) ≤ 2 * hits / (2 * hits + fewer + more) ∧
    (2 * hits / (2 * hits + fewer + more) : ℚ) ≤ hits / (hits + fewer) := by
  rcases Nat.eq_zero_or_pos hits with rfl | some
  · simp
  · have positive : (0 : ℚ) < hits := Nat.cast_pos.mpr some
    have order : (fewer : ℚ) ≤ more := Nat.cast_le.mpr ordered
    have least : (0 : ℚ) ≤ fewer := Nat.cast_nonneg _
    constructor
    · rw [div_le_div_iff₀ (by positivity) (by positivity)]
      nlinarith
    · rw [div_le_div_iff₀ (by positivity) (by positivity)]
      nlinarith

theorem Counts.scoresRated [Fractions] (c : Counts) : c.Rated c.scores := by
  have precision : (c.scores : LabelScores ℚ).precision =
      c.truePositives / (c.truePositives + c.falsePositives) := by
    simp only [scores, shareFraction, Nat.cast_add]
  have recallRate : (c.scores : LabelScores ℚ).recallRate =
      c.truePositives / (c.truePositives + c.falseNegatives) := by
    simp only [scores, shareFraction, Nat.cast_add]
  constructor
  case precision => exact precision
  case recallRate => exact recallRate
  case f1 =>
    rw [f1Fraction]
    split
    · rename_i none
      simp [none]
    · rfl
  case precisionShare => exact precision ▸ partOfWhole _ _
  case recallShare => exact recallRate ▸ partOfWhole _ _
  case f1Share =>
    refine ⟨?_, c.f1Top⟩
    rw [f1Fraction]
    positivity
  case between =>
    rw [f1Fraction, precision, recallRate, min_le_iff, le_max_iff]
    rcases Nat.le_total c.falsePositives c.falseNegatives with ordered | ordered
    · obtain ⟨low, high⟩ := shareFalls c.truePositives ordered
      exact ⟨.inr low, .inl high⟩
    · obtain ⟨low, high⟩ := shareFalls c.truePositives ordered
      rw [add_right_comm] at low high
      exact ⟨.inl low, .inr high⟩

/-! ### Averages -/

structure MeanOver (labels : Finset String) (worth : String → ℚ) (mean : ℚ) : Prop where
  exact : mean = (∑ name ∈ labels, worth name) / labels.card
  none : labels = ∅ → mean = 0
  between : ∀ some : labels.Nonempty,
    labels.inf' some worth ≤ mean ∧ mean ≤ labels.sup' some worth

theorem meanOverSum {labels : Finset String} {worth : String → ℚ} {mean : ℚ}
    (sum : mean = (∑ name ∈ labels, worth name) / labels.card) : MeanOver labels worth mean where
  exact := sum
  none empty := by rw [sum, empty, Finset.sum_empty, zero_div]
  between some := by
    have count : (0 : ℚ) < labels.card := Nat.cast_pos.mpr some.card_pos
    rw [sum, le_div_iff₀ count, div_le_iff₀ count, mul_comm, mul_comm (labels.sup' some worth),
      ← nsmul_eq_mul, ← nsmul_eq_mul]
    exact ⟨labels.card_nsmul_le_sum worth _ fun _ => Finset.inf'_le worth,
      labels.sum_le_card_nsmul worth _ fun _ => Finset.le_sup' worth⟩

theorem Tracker.averageTouched [Fractions] (updates : List Update) (part : LabelScores ℚ → ℚ) :
    MeanOver (touched updates) (fun name => part ((recordAll ∅ updates).counts name).scores)
      ((recordAll ∅ updates).average part) := by
  apply meanOverSum
  rw [averageFraction, ← sizeTouched, ← keysTouched, List.sum_toFinset _ (Table.keysDistinct _),
    Table.keys, List.map_map, Table.size]
  congr 2
  refine List.map_congr_left fun e member => ?_
  have found := (Table.memberFound _).mp member
  simp only [Function.comp_apply, counts, found, Option.getD_some]

open Tracker in
theorem trackerSums [Fractions] (updates : List Update) :
    let t := recordAll ∅ updates
    let labels := touched updates
    (∀ name, name ∈ t.keys ↔ name ∈ labels) ∧
    (∀ name p, (t.counts name).of p =
      ((updates.filter fun u => u.label = name ∧ u.outcome = p).map (·.count)).sum) ∧
    (∀ others, Regrouped updates others → recordAll ∅ others = t ∧
      ∀ {α : Type} [Arithmetic α] (keep : Bool),
        ((recordAll ∅ others).scores keep : HardScores α) = t.scores keep) ∧
    (∀ name, (t.scores true : HardScores ℚ).perLabel.find? name =
      if name ∈ labels then some (t.counts name).scores else none) ∧
    (∀ name, (t.counts name).Rated (t.counts name).scores) ∧
    ∀ keep, let overall := (t.scores keep : HardScores ℚ).overall
      overall.labels = labels.card ∧
      MeanOver labels (fun name => (t.counts name).scores.precision) overall.precision ∧
      MeanOver labels (fun name => (t.counts name).scores.recallRate) overall.recallRate ∧
      MeanOver labels (fun name => (t.counts name).scores.f1) overall.f1 ∧
      overall = (t.scores (!keep) : HardScores ℚ).overall := by
  refine ⟨fun _ => keyTouched, countsRecorded updates, fun others regrouped => ?_,
    perLabelTouched updates, fun name => Counts.scoresRated _, fun keep => ?_⟩
  · have same := (recordAllRegrouped regrouped ∅).symm
    exact ⟨same, fun keep => by rw [same]⟩
  · exact ⟨sizeTouched updates, averageTouched updates (·.precision),
      averageTouched updates (·.recallRate), averageTouched updates (·.f1), rfl⟩

def splitHits : List Update :=
  [⟨"a", .truePositive, 2⟩, ⟨"b", .falseNegative, 1⟩, ⟨"c", .falsePositive, 0⟩,
    ⟨"a", .truePositive, 1⟩]

def joinedHits : List Update :=
  [⟨"a", .truePositive, 3⟩, ⟨"b", .falseNegative, 1⟩, ⟨"c", .falsePositive, 0⟩]

theorem splitHitsJoined : Regrouped splitHits joinedHits ∧
    Tracker.recordAll ∅ joinedHits = Tracker.recordAll ∅ splitHits ∧
    ((Tracker.recordAll ∅ joinedHits).scores true : HardScores Float) =
      (Tracker.recordAll ∅ splitHits).scores true ∧
    ((Tracker.recordAll ∅ splitHits).scores true : HardScores ℚ).overall.labels = 3 := by
  have regrouped : Regrouped splitHits joinedHits :=
    .trans (.reordered (.cons _ (List.perm_append_comm : ([_, _] ++ [_]).Perm _)))
      (.merged "a" .truePositive 2 1 _)
  obtain ⟨_, _, alike, _, _, averages⟩ := trackerSums splitHits
  obtain ⟨same, scored⟩ := alike joinedHits regrouped
  exact ⟨regrouped, same, scored true, (averages true).1⟩

end EvalReport
