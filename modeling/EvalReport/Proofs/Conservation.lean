import EvalReport.Proofs.Alignment
import EvalReport.Proofs.Doubles
import EvalReport.Proofs.Tally

/-! Accuracy and confusion counts tell the same story. Every expected label ends in one true
positive or one false negative, false positives are charged by the rule of the task, and the
labels of a report are those that something was charged to. -/
namespace EvalReport

open Arithmetic

def HardScores.counted {α : Type} (h : HardScores α) (name : String)
    (part : LabelScores α → Nat) : Nat :=
  ((h.perLabel.find? name).map part).getD 0

/-! ### One example -/

namespace Example

variable {t : Task}

theorem hitsCounted (x : Example t) :
    x.confusions.countP (fun e => e.2 = .truePositive) = x.hits := by
  simp only [confusions, List.countP_append, List.countP_map, Function.comp_def, hits]
  simp

theorem chargesCounted (x : Example t) :
    x.confusions.countP (fun e => e.2 = .falsePositive) = x.charged.length := by
  simp only [confusions, List.countP_append, List.countP_map, Function.comp_def]
  simp [apply_ite (· = Outcome.falsePositive)]

theorem missesCounted (x : Example t) :
    x.hits + x.confusions.countP (fun e => e.2 = .falseNegative) = x.opportunities := by
  have missed : x.confusions.countP (fun e => e.2 = .falseNegative) =
      x.expectedLabels.countP fun label => ¬ x.predicts label := by
    simp only [confusions, List.countP_append, List.countP_map, Function.comp_def]
    simp
  rw [missed, hits, opportunities, List.length_eq_countP_add_countP x.predicts]

theorem labelledCount (outcome : Nat → Outcome) (offsets : List Nat) (label : Nat) (o : Outcome) :
    (offsets.map fun offset => (offset, outcome offset)).count (label, o) =
      if outcome label = o then offsets.count label else 0 := by
  induction offsets with
  | nil => simp
  | cons offset rest ih =>
    rw [List.map_cons, List.count_cons, ih, List.count_cons]
    by_cases here : offset = label
    · subst here
      by_cases same : outcome offset = o <;> simp [same]
    · simp [here]

theorem confusionCount (x : Example t) (label : Nat) (o : Outcome) :
    x.confusions.count (label, o) =
      (if (if x.predicts label then Outcome.truePositive else .falseNegative) = o then
        x.expectedLabels.count label else 0) +
      if Outcome.falsePositive = o then x.charged.count label else 0 := by
  rw [confusions, List.count_append,
    labelledCount fun label => if x.predicts label then .truePositive else .falseNegative,
    labelledCount fun _ => .falsePositive]

theorem expectedCounted (x : Example t) (label : Nat) :
    x.confusions.count (label, .truePositive) + x.confusions.count (label, .falseNegative) =
      x.expectedLabels.count label := by
  rw [confusionCount, confusionCount]
  cases x.predicts label <;> simp

theorem chargedCounted (x : Example t) (label : Nat) :
    x.confusions.count (label, .falsePositive) = x.charged.count label := by
  rw [confusionCount]
  cases x.predicts label <;> simp

theorem confused (x : Example t) (label : Nat) :
    (∃ o, (label, o) ∈ x.confusions) ↔ label ∈ x.expectedLabels ∨ label ∈ x.charged := by
  simp [confusions, exists_or]

theorem missCharged (x : Example t) (one : t = .singleLabel ∨ t = .topK)
    (candidates : x.predictedLabels ≠ []) :
    x.opportunities = 1 ∧ x.charged.length = if x.hits = 0 then 1 else 0 := by
  cases t with
  | singleLabel =>
    refine ⟨rfl, ?_⟩
    obtain ⟨scores, predicted, expected⟩ := x
    change (([predicted] : List Nat).filter fun label =>
        !([expected] : List Nat).contains label).length =
      if ([expected] : List Nat).countP ([predicted] : List Nat).contains = 0 then 1 else 0
    by_cases hit : predicted = expected
    · simp [hit]
    · simp [hit, Ne.symm hit]
  | multiLabel => simp at one
  | topK =>
    refine ⟨rfl, ?_⟩
    obtain ⟨first, rest, listed⟩ := List.exists_cons_of_ne_nil candidates
    have head : x.predicted = first :: rest := listed
    cases hit : x.predicts x.expected with
    | true => simp [charged, hits, expectedLabels, Task.expectedLabels, hit]
    | false => simp [charged, hits, expectedLabels, Task.expectedLabels, hit, head]

end Example

namespace Report

variable {t : Task}

/- How often a label is charged with a false positive: single labels by the examples that
predict it and miss, label lists by its occurrences where it is not expected, candidates by the
missed examples that have it in front. -/
def wrongCount : {t : Task} → List (Example t) → Nat → Nat
  | .singleLabel, xs, label => xs.countP fun x => x.predicts label && !x.expects label
  | .multiLabel, xs, label =>
    ((xs.filter fun x => !x.expects label).flatMap (·.predictedLabels)).count label
  | .topK, xs, label => xs.countP fun x =>
    !x.predicts x.expected && x.predictedLabels.head? == some label

theorem unexpectedCount (x : Example t) (label : Nat) :
    (x.predictedLabels.filter fun label => !x.expects label).count label =
      if x.expects label then 0 else x.predictedLabels.count label := by
  cases expected : x.expects label with
  | true => simp [List.count_eq_zero, expected]
  | false => simp [List.count_filter, expected]

theorem singleCharged (x : Example .singleLabel) (label : Nat) :
    x.charged.count label = if x.predicts label && !x.expects label then 1 else 0 := by
  refine (unexpectedCount x label).trans ?_
  change (if x.expects label then 0 else ([x.predicted] : List Nat).count label) =
    if ([x.predicted] : List Nat).contains label && !x.expects label then 1 else 0
  generalize (x.predicted : Nat) = predicted
  by_cases here : predicted = label
  · cases x.expects label <;> simp [here]
  · cases x.expects label <;> simp [here, Ne.symm here]

theorem singleHit (x : Example .singleLabel) (label : Nat) :
    x.confusions.count (label, .truePositive) =
      if x.predicts label && x.expects label then 1 else 0 := by
  rw [Example.confusionCount]
  change _ + 0 = if x.predicts label && ([x.expected] : List Nat).contains label then 1 else 0
  change (if _ then ([x.expected] : List Nat).count label else 0) + 0 = _
  generalize (x.expected : Nat) = expected
  by_cases here : expected = label
  · cases x.predicts label <;> simp [here]
  · cases x.predicts label <;> simp [here, Ne.symm here]

theorem chargedCount (xs : List (Example t)) (label : Nat) :
    (xs.flatMap (·.charged)).count label = wrongCount xs label := by
  induction xs with
  | nil => cases t <;> rfl
  | cons x rest ih =>
    rw [List.flatMap_cons, List.count_append, ih]
    cases t with
    | singleLabel =>
      rw [singleCharged, wrongCount, wrongCount, List.countP_cons, Nat.add_comm]
    | multiLabel =>
      have one : x.charged.count label =
          if x.expects label then 0 else x.predictedLabels.count label := unexpectedCount x label
      rw [one, wrongCount, wrongCount, List.filter_cons]
      cases x.expects label <;> simp
    | topK =>
      have one : x.charged.count label =
          if !x.predicts x.expected && x.predictedLabels.head? == some label then 1 else 0 := by
        change (if x.predicts x.expected then [] else
          x.predictedLabels.head?.toList).count label = _
        cases x.predicts x.expected <;> cases x.predictedLabels.head? <;>
          simp [List.count_singleton]
      rw [one, wrongCount, wrongCount, List.countP_cons, Nat.add_comm]

/-! ### Whole reports -/

theorem totalSum (count : Example t → Nat) (xs : List (Example t)) :
    total count xs = (xs.map count).sum := by
  have shifted : ∀ n, xs.foldl (fun n x => n + count x) n = n + (xs.map count).sum := by
    induction xs with
    | nil => simp
    | cons x rest ih =>
      intro n
      rw [List.foldl_cons, ih, List.map_cons, List.sum_cons, Nat.add_assoc]
  exact (shifted 0).trans (Nat.zero_add _)

theorem confusionTotal (p : Outcome) (xs : List (Example t)) :
    (xs.flatMap (·.confusions)).countP (fun e => e.2 = p) =
      total (fun x => x.confusions.countP fun e => e.2 = p) xs := by
  rw [List.countP_flatMap, totalSum]
  rfl

theorem totalCongr {count other : Example t → Nat} {xs : List (Example t)}
    (each : ∀ x ∈ xs, count x = other x) : total count xs = total other xs := by
  rw [totalSum, totalSum, List.map_congr_left each]

theorem totalPlus (count other : Example t → Nat) (xs : List (Example t)) :
    total (fun x => count x + other x) xs = total count xs + total other xs := by
  simp only [totalSum]
  exact List.sum_map_add

theorem expectedTotal (xs : List (Example t)) (label : Nat) :
    (xs.flatMap (·.confusions)).count (label, .truePositive) +
      (xs.flatMap (·.confusions)).count (label, .falseNegative) =
        (xs.flatMap (·.expectedLabels)).count label := by
  induction xs with
  | nil => rfl
  | cons x rest ih =>
    simp only [List.flatMap_cons, List.count_append]
    rw [← ih, ← x.expectedCounted]
    omega

theorem wrongTotal (xs : List (Example t)) (label : Nat) :
    (xs.flatMap (·.confusions)).count (label, .falsePositive) = wrongCount xs label := by
  rw [← chargedCount, List.count_flatMap, List.count_flatMap]
  congr 2
  exact funext fun x => x.chargedCounted label

theorem involved (xs : List (Example t)) (label : Nat) :
    (∃ x ∈ xs, ∃ o, (label, o) ∈ x.confusions) ↔
      0 < (xs.flatMap (·.expectedLabels)).count label + wrongCount xs label := by
  rw [← chargedCount, Nat.add_pos_iff_pos_or_pos, List.count_pos_iff, List.count_pos_iff,
    List.mem_flatMap, List.mem_flatMap, ← exists_or]
  simp only [Example.confused, and_or_left]

theorem totalMissed (xs : List (Example t)) :
    total (fun x => if x.hits = 0 then 1 else 0) xs = xs.countP fun x => x.hits = 0 := by
  rw [totalSum]
  induction xs with
  | nil => rfl
  | cons x rest ih =>
    rw [List.map_cons, List.sum_cons, ih, List.countP_cons, Nat.add_comm]
    simp

theorem missTotals {xs : List (Example t)}
    (one : t = .singleLabel ∨ t = .topK ∧ ∀ x ∈ xs, x.predictedLabels ≠ []) :
    total (fun x => x.confusions.countP fun e => e.2 = .falsePositive) xs =
        xs.countP (fun x => x.hits = 0) ∧
      total (fun x => x.confusions.countP fun e => e.2 = .falseNegative) xs =
        xs.countP (fun x => x.hits = 0) := by
  have candidates : ∀ x ∈ xs, x.predictedLabels ≠ [] := by
    rcases one with rfl | ⟨_, candidates⟩
    · exact fun x _ => List.cons_ne_nil _ _
    · exact candidates
  have each : ∀ x ∈ xs, x.opportunities = 1 ∧ x.charged.length = if x.hits = 0 then 1 else 0 :=
    fun x member => x.missCharged (one.imp_right And.left) (candidates x member)
  rw [← totalMissed]
  refine ⟨totalCongr fun x member => ?_, totalCongr fun x member => ?_⟩
  · rw [x.chargesCounted, (each x member).2]
  · have balance := x.missesCounted
    rw [(each x member).1] at balance
    split <;> omega

theorem predictedCount {xs : List (Example .singleLabel)} (label : Nat) :
    (xs.flatMap (·.confusions)).count (label, .truePositive) + wrongCount xs label =
      xs.countP (·.predicts label) := by
  induction xs with
  | nil => rfl
  | cons x rest ih =>
    have one : x.confusions.count (label, .truePositive) + x.charged.count label =
        if x.predicts label then 1 else 0 := by
      rw [singleHit, singleCharged]
      cases x.predicts label <;> cases x.expects label <;> rfl
    rw [← chargedCount] at ih ⊢
    rw [List.flatMap_cons, List.flatMap_cons, List.count_append, List.count_append,
      List.countP_cons, ← ih]
    omega

theorem scoreRowsFault {catalogue : Nat} {xs : List (Example t)} {fault : Fault}
    (failed : scoreRows catalogue xs = .error fault) :
    ∃ x ∈ xs, ∃ row, x.scores = some row ∧ row.length ≠ catalogue := by
  induction xs with
  | nil => contradiction
  | cons x rest ih =>
    unfold scoreRows at failed
    cases present : x.scores with
    | none => simp [present] at failed
    | some row =>
      simp only [present] at failed
      by_cases wide : row.length = catalogue
      · rw [if_pos wide] at failed
        cases read : scoreRows catalogue rest with
        | ok rows =>
          rw [read] at failed
          contradiction
        | error cause =>
          obtain ⟨y, member, uneven⟩ := ih (by rw [read] at failed; exact read.trans failed)
          exact ⟨y, List.mem_cons_of_mem _ member, uneven⟩
      · exact ⟨x, List.mem_cons_self, row, present, wide⟩

variable {α : Type} [Arithmetic α]

structure Accounted (labels : List String) (xs : List (Example t)) (r : Report α) : Prop where
  hits : r.hard.perLabel.total (·.truePositives) = total Example.hits xs
  opportunities : r.hard.perLabel.total (fun s => s.truePositives + s.falseNegatives) =
    total Example.opportunities xs
  accuracy : 0 < r.hard.perLabel.total (fun s => s.truePositives + s.falseNegatives) →
    r.accuracy = ofCount (r.hard.perLabel.total (·.truePositives)) /
      ofCount (r.hard.perLabel.total fun s => s.truePositives + s.falseNegatives)
  nothing : r.hard.perLabel.total (fun s => s.truePositives + s.falseNegatives) = 0 →
    r.accuracy = ofCount 0
  expected : ∀ label name, labels[label]? = some name →
    r.hard.counted name (·.truePositives) + r.hard.counted name (·.falseNegatives) =
      (xs.flatMap (·.expectedLabels)).count label
  wrong : ∀ label name, labels[label]? = some name →
    r.hard.counted name (·.falsePositives) = wrongCount xs label
  predicted : t = .singleLabel → ∀ label name, labels[label]? = some name →
    r.hard.counted name (·.truePositives) + r.hard.counted name (·.falsePositives) =
      xs.countP (·.predicts label)
  missed : t = .singleLabel ∨ t = .topK ∧ (∀ x ∈ xs, x.predictedLabels ≠ []) →
    r.hard.perLabel.total (·.falsePositives) = xs.countP (fun x => x.hits = 0) ∧
    r.hard.perLabel.total (·.falseNegatives) = xs.countP (fun x => x.hits = 0)
  present : ∀ name, name ∈ r.hard.perLabel.keys ↔ ∃ label, labels[label]? = some name ∧
    0 < (xs.flatMap (·.expectedLabels)).count label + wrongCount xs label
  distinct : r.hard.perLabel.keys.Nodup
  averaged : r.hard.overall.labels = r.hard.perLabel.keys.length

theorem scoresTotal (labels : List String) (xs : List (Example t)) (part : LabelScores α → Nat)
    (p : Outcome) (same : ∀ c : Counts, part c.scores = c.of p) :
    ((tally labels xs).scores true).perLabel.total part =
      total (fun x => x.confusions.countP fun e => e.2 = p) xs := by
  rw [← confusionTotal, ← tallyTotal labels]
  exact (Table.totalMap part Counts.scores _).trans (by simp only [same])

theorem scoresCounted {labels : List String} (distinct : labels.Nodup) {xs : List (Example t)}
    (below : ∀ x ∈ xs, ∀ label ∈ x.referenced, label < labels.length) {label : Nat}
    {name : String} (here : labels[label]? = some name) (part : LabelScores α → Nat) (p : Outcome)
    (same : ∀ c : Counts, part c.scores = c.of p) :
    ((tally labels xs).scores true).counted name part =
      (xs.flatMap (·.confusions)).count (label, p) := by
  rw [← tallyCounts distinct below here, Tracker.counts]
  change (((tally labels xs).map Counts.scores).find? name |>.map part).getD 0 = _
  rw [Table.findMap]
  cases (tally labels xs).find? name with
  | none => exact (Counts.ofNone p).symm
  | some c => exact same c

theorem accounted (apart : CountsApart α) {labels : List String}
    (distinct : labels.Nodup) {xs : List (Example t)}
    (below : ∀ x ∈ xs, ∀ label ∈ x.referenced, label < labels.length) {r : Report α}
    (accuracy : r.accuracy = share (total Example.hits xs) (total Example.opportunities xs))
    (hard : r.hard = (tally labels xs).scores true) : Accounted labels xs r := by
  have truePositives : r.hard.perLabel.total (·.truePositives) = total Example.hits xs := by
    rw [hard, scoresTotal labels xs (·.truePositives) .truePositive fun _ => rfl]
    exact totalCongr fun x _ => x.hitsCounted
  have falseNegatives : r.hard.perLabel.total (·.falseNegatives) =
      total (fun x => x.confusions.countP fun e => e.2 = .falseNegative) xs := by
    rw [hard, scoresTotal labels xs (·.falseNegatives) .falseNegative fun _ => rfl]
  have opportunities : r.hard.perLabel.total (fun s => s.truePositives + s.falseNegatives) =
      total Example.opportunities xs := by
    rw [Table.totalPlus, truePositives, falseNegatives, ← totalPlus]
    exact totalCongr fun x _ => x.missesCounted
  have counted : ∀ {label name}, labels[label]? = some name → ∀ part p,
      (∀ c : Counts, part (c.scores : LabelScores α) = c.of p) →
        r.hard.counted name part = (xs.flatMap (·.confusions)).count (label, p) := by
    intro label name here part p same
    rw [hard, scoresCounted distinct below here part p same]
  refine ⟨truePositives, opportunities, ?_, ?_, ?_, ?_, ?_, ?_, ?_, Table.keysDistinct _, ?_⟩
  · intro some
    rw [opportunities] at some
    rw [accuracy, truePositives, opportunities, shareQuotient apart _ some]
  · intro none
    rw [accuracy, ← opportunities, none, shareNothing apart]
  · intro label name here
    rw [counted here _ .truePositive fun _ => rfl, counted here _ .falseNegative fun _ => rfl,
      expectedTotal]
  · intro label name here
    rw [counted here _ .falsePositive fun _ => rfl, wrongTotal]
  · rintro rfl label name here
    rw [counted here _ .truePositive fun _ => rfl, counted here _ .falsePositive fun _ => rfl,
      wrongTotal, predictedCount]
  · intro one
    rw [falseNegatives, hard, scoresTotal labels xs (·.falsePositives) .falsePositive fun _ => rfl]
    exact missTotals one
  · intro name
    rw [Table.keyFound, hard]
    change (((tally labels xs).map Counts.scores).find? name).isSome ↔ _
    rw [Table.findMap, Option.isSome_map, tallyFound distinct below]
    simp only [involved]
  · rw [hard]
    change (tally labels xs).entries.length = ((tally labels xs).map Counts.scores).keys.length
    simp [Table.keys, Table.map]

theorem computeMade {labels : List String} {xs : List (Example t)}
    (referenced : ∀ x ∈ xs, ∀ label ∈ x.referenced, label < labels.length) (loss : Option α)
    (options : ReportOptions α) :
    (∃ made, compute labels xs loss options = .ok made) ∨
      ∃ x ∈ xs, ∃ row, x.scores = some row ∧ row.length ≠ labels.length := by
  rw [compute, strayLabelNone.mpr referenced]
  dsimp only
  split
  · cases read : scoreRows labels.length xs with
    | error fault => exact .inr (scoreRowsFault read)
    | ok found => cases found <;> exact .inl ⟨_, rfl⟩
  · exact .inl ⟨_, rfl⟩

end Report

open Report in
theorem countsConserved {t : Task} {α : Type} [Arithmetic α] (apart : CountsApart α)
    (labels : List String) (distinct : labels.Nodup) {xs : List (Example t)}
    (referenced : ∀ x ∈ xs, ∀ label ∈ x.referenced, label < labels.length) (loss : Option α)
    (options : ReportOptions α) (kept : options.keepLabels = true) :
    ((∃ made, compute labels xs loss options = .ok made) ∨
      ∃ x ∈ xs, ∃ row, x.scores = some row ∧ row.length ≠ labels.length) ∧
    ∀ r log, compute labels xs loss options = .ok (r, log) → Accounted labels xs r := by
  refine ⟨computeMade referenced loss options, fun r log made => ?_⟩
  obtain ⟨accuracy, hard, _⟩ := computeParts made
  exact accounted apart distinct referenced accuracy (kept ▸ hard)

def missedOnce : List (Example .topK) :=
  [⟨none, [0, 2], 1⟩, ⟨none, [1, 0], 0⟩, ⟨none, [2], 2⟩]

theorem missedOnceAccounted :
    (∃ (r : Report Float) (log : List LogLine),
      Report.compute ["a", "b", "c"] missedOnce none .default = .ok (r, log) ∧
      r.accuracy = 2 / 3 ∧
      r.hard.counted "a" (·.falsePositives) = 1 ∧ r.hard.counted "c" (·.falsePositives) = 0 ∧
      r.hard.perLabel.total (·.falsePositives) = 1 ∧
      r.hard.perLabel.total (·.falseNegatives) = 1) ∧
    ∃ (r : Report ℚ) (log : List LogLine),
      Report.compute ["a", "b", "c"] missedOnce none ⟨true, [], true⟩ = .ok (r, log) ∧
      r.accuracy = 2 / 3 := by
  have referenced : ∀ x ∈ missedOnce, ∀ label ∈ x.referenced, label < 3 := by decide
  have candidates : ∀ x ∈ missedOnce, x.predictedLabels ≠ [] := by decide
  constructor
  · obtain ⟨r, log, made⟩ : ∃ (r : Report Float) (log : List LogLine),
        Report.compute ["a", "b", "c"] missedOnce none .default = .ok (r, log) := ⟨_, _, rfl⟩
    obtain ⟨_, each⟩ := countsConserved countsDoubles ["a", "b", "c"] (by decide) referenced none
      ReportOptions.default rfl
    have accounted := each r log made
    have missed := accounted.missed (.inr ⟨rfl, candidates⟩)
    refine ⟨r, log, made, ?_, accounted.wrong 0 "a" rfl, accounted.wrong 2 "c" rfl,
      missed.1, missed.2⟩
    rw [accounted.accuracy (accounted.opportunities ▸ by decide), accounted.hits,
      accounted.opportunities]
    rfl
  · obtain ⟨r, log, made⟩ : ∃ (r : Report ℚ) (log : List LogLine),
        Report.compute ["a", "b", "c"] missedOnce none ⟨true, [], true⟩ = .ok (r, log) :=
      ⟨_, _, rfl⟩
    obtain ⟨_, each⟩ := countsConserved countsFractions ["a", "b", "c"] (by decide) referenced none
      ⟨true, [], true⟩ rfl
    have accounted := each r log made
    refine ⟨r, log, made, ?_⟩
    rw [accounted.accuracy (accounted.opportunities ▸ by decide), accounted.hits,
      accounted.opportunities]
    rfl

end EvalReport
