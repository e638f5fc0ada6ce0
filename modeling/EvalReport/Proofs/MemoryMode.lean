import EvalReport.Proofs.Alignment

/-! The memory-efficient mode beside the full one. Fed the same batches, the lean pass has all
that the full pass has but its score rows, as long as the full one accepts; what a report says
without scores is read from the rest. -/
namespace EvalReport

abbrev PassRules.efficient (rules : PassRules) : PassRules :=
  { rules with memoryEfficient := true }

structure Pass.Withholds {t : Task} (lean full : Pass t) : Prop where
  predicted : lean.predicted = full.predicted
  expected : lean.expected = full.expected
  scores : lean.scores = []
  losses : lean.losses = full.losses
  batchSizes : lean.batchSizes = full.batchSizes
  context : lean.context = full.context
  batches : lean.batches = full.batches

/-! ### Runs side by side -/

section Runs

variable {rules : PassRules}

theorem decodeWithheld {batch : Batch} {d : Decoded rules.kind.task}
    (ok : rules.decode batch = .ok d) :
    rules.efficient.decode batch = .ok { d with scores := [] } := by
  obtain ⟨predicted, expected, aligned, kept⟩ := decodedExact.mp ok
  obtain ⟨counted, _⟩ := keptScoresExact.mp kept
  have none : rules.efficient.keptScores d.predicted.length batch = .ok [] :=
    keptScoresExact.mpr ⟨counted, rfl⟩
  exact decodedExact.mpr ⟨predicted, expected, aligned, none⟩

theorem receiveWithheld {lean full : Pass rules.kind.task} (withheld : lean.Withholds full)
    {a : Arrival} (ok : (rules.receive full a).result = .ok ()) :
    (rules.efficient.receive lean a).result = .ok () ∧
      (rules.efficient.receive lean a).pass.Withholds (rules.receive full a).pass := by
  obtain ⟨d, decoded⟩ := (rules.receiveOk full a).mp ok
  have leanDecoded := decodeWithheld decoded
  refine ⟨(rules.efficient.receiveOk lean a).mpr ⟨_, leanDecoded⟩, ?_⟩
  rw [rules.receivePass full decoded, rules.efficient.receivePass lean leanDecoded]
  exact {
    predicted := by simp only [Pass.append, withheld.predicted]
    expected := by simp only [Pass.append, withheld.expected]
    scores := by simp only [Pass.append, withheld.scores, List.append_nil]
    losses := by simp only [Pass.append, withheld.losses]
    batchSizes := by simp only [Pass.append, withheld.batchSizes]
    context := by simp only [Pass.append, withheld.context]
    batches := by simp only [Pass.append, withheld.batches] }

theorem runWithheld (xs : List Arrival) {lean full : Pass rules.kind.task}
    (withheld : lean.Withholds full)
    (accepted : ∀ outcome ∈ rules.outcomes full xs, outcome = .ok ()) :
    (∀ outcome ∈ rules.efficient.outcomes lean xs, outcome = .ok ()) ∧
      (rules.efficient.run lean (xs.map .add)).Withholds (rules.run full (xs.map .add)) := by
  have step : ∀ {full lean : Pass rules.kind.task} {a b : Arrival}, lean.Withholds full → a = b →
      (rules.receive full a).result = .ok () → (rules.efficient.receive lean b).result = .ok () ∧
        (rules.efficient.receive lean b).pass.Withholds (rules.receive full a).pass := by
    rintro full lean a _ withheld rfl ok
    exact receiveWithheld withheld ok
  have same : List.Forall₂ Eq xs xs := List.forall₂_same.mpr fun _ _ => rfl
  exact rules.runSimulated rules.efficient step same withheld accepted

end Runs

/-! ### Reports without scores -/

section Reports

variable {t : Task} {α : Type} [Arithmetic α]

def Example.withhold (x : Example t) : Example t := { x with scores := none }

def Report.withoutScores (r : Report α) : Report α :=
  { r with soft := none, mcc := none, rocAuc := none }

theorem assembleWithheld (row : t.Row) (expected : t.Expected) (scores : Option (List Score)) :
    (t.assemble row expected scores).withhold = t.assemble row expected none := by
  cases t <;> rfl

theorem assembledWithheld {lean full : Pass t} (same : lean.Withholds full) :
    lean.assembled true = (full.assembled false).map Example.withhold := by
  simp only [Pass.assembled, List.map_map, same.predicted, same.expected]
  apply List.map_congr_left
  rintro ⟨⟨row, expected⟩, i⟩ _
  exact (assembleWithheld row expected _).symm

theorem finishWithheld {lean full : Pass t} (same : lean.Withholds full)
    (targets : full.expected.length = full.examples)
    (rows : full.scores.length = full.examples) :
    lean.finish true = (full.finish false).map (List.map Example.withhold) := by
  have counted : lean.examples = full.examples := congrArg List.length same.predicted
  have leanTargets : lean.expected.length = lean.examples := by
    rw [same.expected, counted, targets]
  have lost : lean.strayColumn = full.strayColumn := by
    unfold Pass.strayColumn
    rw [counted, same.context]
  cases stray : full.strayColumn with
  | some column =>
    rw [Pass.finishStray targets (fun _ => rows) stray,
      Pass.finishStray leanTargets (by simp) (lost.trans stray), counted]
    rfl
  | none =>
    rw [Pass.finishEven targets (fun _ => rows) stray,
      Pass.finishEven leanTargets (by simp) (lost.trans stray), assembledWithheld same]
    rfl

theorem Aligned.finishScored {rules : PassRules} {p : Pass rules.kind.task}
    (aligned : Aligned rules p) (mode : rules.memoryEfficient = false)
    {xs : List (Example rules.kind.task)} (finished : p.finish rules.memoryEfficient = .ok xs) :
    Report.scoreRows rules.catalogue xs = .ok (some p.scores) := by
  cases stray : p.strayColumn with
  | some column =>
    rw [aligned.finishStray stray] at finished
    contradiction
  | none =>
    rw [aligned.finishEven stray] at finished
    cases Except.ok.inj finished
    exact aligned.assembledScores mode

namespace Report

theorem referencedWithheld (xs : List (Example t)) :
    (xs.map Example.withhold).flatMap (·.referenced) = xs.flatMap (·.referenced) := by
  rw [List.flatMap_map]
  rfl

theorem confusionsWithheld (xs : List (Example t)) :
    (xs.map Example.withhold).flatMap (·.confusions) = xs.flatMap (·.confusions) := by
  rw [List.flatMap_map]
  cases t <;> rfl

theorem totalWithheld {count : Example t → Nat} (blind : ∀ x, count x.withhold = count x)
    (xs : List (Example t)) : total count (xs.map Example.withhold) = total count xs := by
  simp only [total, List.foldl_map, blind]

theorem hardOnlyWithheld (labels : List String) (xs : List (Example t)) (loss : Option α)
    (keepLabels : Bool) :
    hardOnly labels (xs.map Example.withhold) loss keepLabels =
      hardOnly labels xs loss keepLabels := by
  have hits := totalWithheld (fun x : Example t => (rfl : x.withhold.hits = x.hits)) xs
  have opportunities :=
    totalWithheld (fun x : Example t => (rfl : x.withhold.opportunities = x.opportunities)) xs
  simp only [hardOnly, hits, opportunities, tally, confusionsWithheld]

theorem withScoresForgotten (labels : List String) (xs : List (Example t))
    (rows : List (List Score)) (thresholds : List α) (loss : Option α) (keepLabels : Bool) :
    (withScores labels xs rows thresholds (hardOnly labels xs loss keepLabels)).withoutScores =
      hardOnly labels xs loss keepLabels := by
  simp only [withScores]
  split
  · rfl
  · rfl

theorem computeWithheld {labels : List String} {xs : List (Example t)} {rows : List (List Score)}
    (scored : scoreRows labels.length xs = .ok (some rows)) (loss : Option α)
    (thresholds : List α) (keepLabels : Bool) :
    compute labels (xs.map Example.withhold) loss ⟨false, thresholds, keepLabels⟩ =
      (compute labels xs loss ⟨true, thresholds, keepLabels⟩).map
        fun made => (made.1.withoutScores, made.2) := by
  simp only [compute, strayLabel, referencedWithheld, hardOnlyWithheld, scored]
  cases (xs.flatMap (·.referenced)).find? fun label => labels.length ≤ label with
  | some label => rfl
  | none =>
    cases t.isRanked with
    | false => rfl
    | true =>
      simp only [Bool.and_false, Bool.false_eq_true, if_false, Bool.and_true, if_true, Except.map,
        withScoresForgotten]

end Report

end Reports

/-! ### Reporters in both modes -/

namespace Reporter

def efficient (r : Reporter) : Reporter :=
  { r with config := r.config.set (.memoryEfficient true) }

theorem newEfficient {kind : Kind} {labels : List String} {config : Config} {r : Reporter}
    {log : List LogLine} (made : Reporter.new kind labels config = .ok (r, log)) :
    Reporter.new kind labels (config.set (.memoryEfficient true)) = .ok (r.efficient, log) := by
  simp only [new, bindOk, Except.ok.injEq, Prod.mk.injEq] at made
  obtain ⟨valid, validated, distinct, checked, selection, resolved, rfl, rfl⟩ := made
  simp only [new, bindOk]
  exact ⟨valid, validated, distinct, checked, selection, resolved, rfl⟩

theorem projectionsWithheld {r : Reporter} {lean : Pass r.kind.task}
    (same : lean.Withholds r.pass) :
    { r.efficient with pass := lean }.predictions = r.predictions ∧
      { r.efficient with pass := lean }.targets = r.targets :=
  ⟨congrArg (collectOk (r.kind.task.reportPredicted r.labels)) same.predicted,
    congrArg (collectOk (r.kind.task.reportExpected r.labels)) same.expected⟩

theorem metricsWithheld {r : Reporter} (mode : r.config.memoryEfficient = false)
    (aligned : Aligned r.rules r.pass) {lean : Pass r.kind.task}
    (same : lean.Withholds r.pass) :
    { r.efficient with pass := lean }.metrics =
      r.metrics.map fun made => (made.1.withoutScores, made.2) := by
  have leanFinish : lean.finish true = (r.pass.finish false).map (List.map Example.withhold) :=
    finishWithheld same aligned.expected (aligned.kept mode).1
  have sameLoss : lean.loss = r.pass.loss := congrArg Arithmetic.mean? same.losses
  change (lean.finish true >>= fun examples =>
    Report.compute r.labels examples lean.loss ⟨false, r.config.thresholds, true⟩) = _
  rw [metrics, options, leanFinish, sameLoss, mode]
  cases finished : r.pass.finish false with
  | error fault => rfl
  | ok xs =>
    have scored : Report.scoreRows r.labels.length xs = .ok (some r.pass.scores) :=
      aligned.finishScored mode ((congrArg r.pass.finish mode).trans finished)
    exact Report.computeWithheld scored r.pass.loss r.config.thresholds true

end Reporter

theorem efficientSimulates {kind : Kind} {labels : List String} {config : Config}
    {full : Reporter} {log : List LogLine}
    (made : Reporter.new kind labels config = .ok (full, log))
    (mode : config.memoryEfficient = false) (xs : List Arrival)
    (accepted : ∀ outcome ∈ full.outcomes xs, outcome = .ok ()) :
    Reporter.new kind labels (config.set (.memoryEfficient true)) = .ok (full.efficient, log) ∧
    (∀ outcome ∈ full.efficient.outcomes xs, outcome = .ok ()) ∧
    ∀ before, before <+: xs →
      (full.efficient.feed before).pass.Withholds (full.feed before).pass ∧
      (full.efficient.feed before).predictions = (full.feed before).predictions ∧
      (full.efficient.feed before).targets = (full.feed before).targets ∧
      (full.efficient.feed before).metrics =
        (full.feed before).metrics.map fun made => (made.1.withoutScores, made.2) := by
  obtain ⟨selection, fields⟩ := Reporter.newFields made
  have fullMode : full.config.memoryEfficient = false := by rw [fields]; exact mode
  have start : full.pass.Withholds full.pass :=
    ⟨rfl, rfl, by rw [fields], rfl, rfl, rfl, rfl⟩
  refine ⟨Reporter.newEfficient made, (runWithheld xs start accepted).1, ?_⟩
  intro before inFront
  have acceptedBefore : ∀ outcome ∈ full.rules.outcomes full.pass before, outcome = .ok () :=
    fun outcome member =>
      accepted outcome ((full.rules.outcomesPrefix full.pass inFront).subset member)
  have same : (full.efficient.feed before).pass.Withholds (full.feed before).pass :=
    (runWithheld before start acceptedBefore).2
  have aligned : Aligned (full.feed before).rules (full.feed before).pass := by
    rw [Reporter.feedAfterAll]
    exact Reporter.reachedAligned made _
  obtain ⟨samePredictions, sameTargets⟩ :=
    Reporter.projectionsWithheld (r := full.feed before) same
  exact ⟨same, samePredictions, sameTargets,
    Reporter.metricsWithheld (r := full.feed before) fullMode aligned same⟩

theorem scoredPairWithheld :
    ((Reporter.yesNo .singleLabel).feed [scoredPair (labelPair 1 1) (labelPair 0 1)]).pass.scores =
      [[⟨1⟩, ⟨0⟩], [⟨0⟩, ⟨1⟩]] ∧
    ((Reporter.yesNo .singleLabel).efficient.feed
      [scoredPair (labelPair 1 1) (labelPair 0 1)]).pass.scores = [] := by
  have accepted : ∀ outcome ∈ (Reporter.yesNo .singleLabel).outcomes
      [scoredPair (labelPair 1 1) (labelPair 0 1)], outcome = .ok () :=
    List.forall_mem_singleton.mpr rfl
  obtain ⟨_, _, alike⟩ := efficientSimulates (Reporter.yesNoMade .singleLabel) rfl
    [scoredPair (labelPair 1 1) (labelPair 0 1)] accepted
  exact ⟨rfl, (alike _ (List.prefix_refl _)).1.scores⟩

end EvalReport
