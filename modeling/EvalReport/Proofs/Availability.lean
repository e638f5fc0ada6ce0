import EvalReport.Proofs.Conservation

/-! When a report has the number it is selected by. Construction settles what the labels have to
be; the rest depends on the kind, the mode and the examples of the pass, and each criterion goes
without a value in cases of its own. -/
namespace EvalReport

/-! ### What the rows of a pass say about a label -/

/- What a row holds against its example: predicted labels, or the first candidate of a miss. -/
def Task.Predicts : (t : Task) → t.Row → t.Expected → Nat → Prop
  | singleLabel, row, _, label => label = row
  | multiLabel, row, _, label => label ∈ row
  | topK, row, expected, label => expected ∉ row.candidates ∧ row.candidates.head? = some label

namespace Pass

variable {t : Task}

def Predicts (p : Pass t) (label : Nat) : Prop :=
  ∃ pair ∈ p.predicted.zip p.expected, t.Predicts pair.1 pair.2 label

def Expects (p : Pass t) (label : Nat) : Prop :=
  ∃ expected ∈ p.expected, label ∈ t.expectedLabels expected

def OneSided (p : Pass t) (label : Nat) : Prop :=
  (∀ expected ∈ p.expected, label ∉ t.expectedLabels expected) ∨
    ∀ expected ∈ p.expected, label ∈ t.expectedLabels expected

end Pass

/- What keeps a reporter from the value it selects by. -/
def Reporter.Lacks (r : Reporter) : Prop :=
  match r.selection with
  | .accuracy => False
  | .macroF1 => False
  | .mcc => r.kind ≠ .singleLabel ∨ r.config.memoryEfficient = true
  | .rocAuc => r.kind ≠ .singleLabel ∨ r.config.memoryEfficient = true ∨ r.pass.OneSided 0
  | .labelAveragePrecision _ => (∃ k, r.kind = .topK k) ∨ r.config.memoryEfficient = true
  | .labelRocAuc label => (∃ k, r.kind = .topK k) ∨ r.config.memoryEfficient = true ∨
      r.pass.OneSided (r.labels.idxOf label)
  | .labelF1 label => ¬ r.pass.Expects (r.labels.idxOf label) ∧
      ¬ r.pass.Predicts (r.labels.idxOf label)
  | .negativeLoss => r.pass.losses = []

/-! ### Single values -/

namespace Criterion

theorem targetOk {c : Criterion} {target : Option String} {labels : List String} {label : String} :
    c.target target labels = .ok label ↔ target = some label ∧ label ∈ labels := by
  unfold Criterion.target
  cases target with
  | none => simp
  | some name =>
    by_cases known : name ∈ labels
    · simp only [List.contains_eq_mem, known, decide_true, if_true, Except.ok.injEq,
        Option.some.injEq]
      exact ⟨fun same => ⟨same, same ▸ known⟩, And.left⟩
    · simp only [List.contains_eq_mem, known, decide_false, Bool.false_eq_true, if_false,
        reduceCtorEq, Option.some.injEq, false_iff, not_and]
      exact fun same => same ▸ known

theorem binaryOk {c : Criterion} {labels : List String} {u : Unit} :
    c.binary labels = .ok u ↔ labels.length = 2 := by
  unfold binary
  split <;> simp [*]

/- What construction has settled about the labels by the time a value is asked for. -/
structure Bound (c : Criterion) (target : Option String) (labels : List String) (s : Selection) :
    Prop where
  criterion : s.criterion = c
  named : ∀ label, s.label? = some label → target = some label ∧ label ∈ labels
  binary : c.precondition = .binaryLabels → labels.length = 2

theorem resolvedBound {c : Criterion} {target : Option String} {labels : List String}
    {s : Selection} (resolved : c.resolve target labels = .ok s) : Bound c target labels s := by
  cases c with
  | accuracy | macroF1 | negativeLoss =>
    cases Except.ok.inj resolved
    exact ⟨rfl, fun _ => by simp [Selection.label?], fun needs => by contradiction⟩
  | rocAuc | mcc =>
    obtain ⟨_, two, rfl⟩ := mapOk.mp resolved
    exact ⟨rfl, fun _ => by simp [Selection.label?], fun _ => binaryOk.mp two⟩
  | labelF1 | labelAveragePrecision | labelRocAuc =>
    obtain ⟨label, found, rfl⟩ := mapOk.mp resolved
    refine ⟨rfl, fun other same => ?_, fun needs => by contradiction⟩
    cases Option.some.inj same
    exact targetOk.mp found

end Criterion

namespace Selection

theorem extractFault (s : Selection) {m : Report Float} {fault : Fault}
    (failed : s.extract m = .error fault) :
    fault = .metricUnavailable s.text "not present in the report" := by
  unfold extract at failed
  split at failed
  · contradiction
  · exact (Except.error.inj failed).symm

theorem extractFails (s : Selection) (m : Report Float) :
    (∃ fault, s.extract m = .error fault) ↔ s.value? m = none := by
  unfold extract
  cases s.value? m with
  | none => simp
  | some value => simp

end Selection

theorem Arithmetic.meanNone {α : Type} [Arithmetic α] (xs : List α) :
    mean? xs = none ↔ xs = [] := by
  cases xs <;> simp [mean?]

theorem Ranking.rocAucNone {α : Type} [Arithmetic α] (xs : List Judged) :
    (rocAuc xs : Option α) = none ↔
      (∀ x ∈ xs, x.relevant = false) ∨ ∀ x ∈ xs, x.relevant = true := by
  have none : positives xs = 0 ↔ ∀ x ∈ xs, x.relevant = false := by
    simp [positives, List.countP_eq_zero]
  have all : xs.length - positives xs = 0 ↔ ∀ x ∈ xs, x.relevant = true := by
    have bound : positives xs ≤ xs.length := List.countP_le_length
    have whole : positives xs = xs.length ↔ ∀ x ∈ xs, x.relevant = true := List.countP_eq_length
    rw [← whole]
    omega
  rw [← none, ← all, rocAuc]
  dsimp only
  split
  · rename_i degenerate
    simpa using degenerate
  · rename_i proper
    simpa using proper

theorem Report.judgedRelevant {t : Task} {xs : List (Example t)} {rows : List (List Score)}
    (even : rows.length = xs.length) (label : Nat) :
    (judged xs rows label).map (·.relevant) = xs.map (·.expects label) := by
  apply List.ext_getElem
  · simp [judged, even]
  · simp [judged]

theorem Report.softFound {t : Task} {α : Type} [Arithmetic α] {labels : List String}
    (distinct : labels.Nodup) (thresholds : List α) (xs : List (Example t))
    (rows : List (List Score)) {label : Nat} {name : String} (here : labels[label]? = some name) :
    (softScores labels thresholds xs rows).find? name =
      some (SoftScores.compute (judged xs rows label) thresholds) :=
  Table.findOfNames distinct
    (fun label => SoftScores.compute (judged xs rows label) thresholds) here

theorem Report.withScoresSoft {t : Task} {α : Type} [Arithmetic α] (labels : List String)
    (xs : List (Example t)) (rows : List (List Score)) (thresholds : List α) (r : Report α) :
    (withScores labels xs rows thresholds r).soft =
      some (softScores labels thresholds xs rows) := by
  unfold withScores
  dsimp only
  split <;> rfl

theorem Report.withScoresBinary {t : Task} {α : Type} [Arithmetic α] {labels : List String}
    (binary : t.isBinary = true) (two : labels.length = 2) (xs : List (Example t))
    (rows : List (List Score)) (thresholds : List α) (r : Report α) :
    (withScores labels xs rows thresholds r).mcc = some (binaryMcc labels (tally labels xs)) ∧
      (withScores labels xs rows thresholds r).rocAuc = Ranking.rocAuc (judged xs rows 0) := by
  rw [withScores, if_pos (by simp [binary, two])]
  exact ⟨rfl, rfl⟩

theorem Report.withScoresOther {t : Task} {α : Type} [Arithmetic α] (labels : List String)
    (other : t.isBinary = false) (xs : List (Example t)) (rows : List (List Score))
    (thresholds : List α) (r : Report α) :
    (withScores labels xs rows thresholds r).mcc = r.mcc ∧
      (withScores labels xs rows thresholds r).rocAuc = r.rocAuc := by
  rw [withScores, if_neg (by simp [other])]
  exact ⟨rfl, rfl⟩

/-! ### The examples of a pass -/

section Assembled

variable {t : Task} {p : Pass t} {memoryEfficient : Bool}

theorem assembledExpected (targets : p.expected.length = p.examples) :
    (p.assembled memoryEfficient).map (·.expectedLabels) = p.expected.map t.expectedLabels := by
  apply List.ext_getElem
  · simp [Pass.assembled, targets, Pass.examples]
  · simp [Pass.assembled, assembleExpected]

theorem pairInvolves (row : t.Row) (expected : t.Expected) (scores : Option (List Score))
    (label : Nat) :
    (∃ o, (label, o) ∈ (t.assemble row expected scores).confusions) ↔
      label ∈ t.expectedLabels expected ∨ t.Predicts row expected label := by
  rw [Example.confused, assembleExpected]
  cases t with
  | singleLabel =>
    refine or_congr_right' fun unexpected => ?_
    have charged : label ∈ (Task.singleLabel.assemble row expected scores).charged ↔
        label ∈ ([row] : List Nat) ∧ label ∉ Task.singleLabel.expectedLabels expected := by
      simp [Example.charged, Example.expects, Example.predictedLabels, Example.expectedLabels,
        Task.predictedLabels, Task.assemble]
    rw [charged, List.mem_singleton]
    exact and_iff_left unexpected
  | multiLabel =>
    refine or_congr_right' fun unexpected => ?_
    have charged : label ∈ (Task.multiLabel.assemble row expected scores).charged ↔
        label ∈ (row : List Nat) ∧ label ∉ Task.multiLabel.expectedLabels expected := by
      simp [Example.charged, Example.expects, Example.predictedLabels, Example.expectedLabels,
        Task.predictedLabels, Task.assemble]
    rw [charged]
    exact and_iff_left unexpected
  | topK =>
    refine or_congr_right ?_
    change label ∈ (if row.candidates.contains expected then [] else
      row.candidates.head?.toList) ↔ expected ∉ row.candidates ∧ row.candidates.head? = some label
    by_cases hit : (expected : Nat) ∈ row.candidates
    · simp [hit]
    · simp [hit]

theorem assembledInvolves (targets : p.expected.length = p.examples) (label : Nat) :
    (∃ x ∈ p.assembled memoryEfficient, ∃ o, (label, o) ∈ x.confusions) ↔
      p.Expects label ∨ p.Predicts label := by
  have seconds : (p.predicted.zip p.expected).map Prod.snd = p.expected :=
    List.map_snd_zip targets.le
  have paired : p.Expects label ↔
      ∃ pair ∈ p.predicted.zip p.expected, label ∈ t.expectedLabels pair.2 := by
    rw [Pass.Expects, ← seconds]
    simp only [List.mem_map, exists_exists_and_eq_and]
    rw [seconds]
  rw [paired, Pass.Predicts, ← exists_or]
  simp only [← and_or_left]
  constructor
  · rintro ⟨x, member, involved⟩
    obtain ⟨pair, inside, scores, rfl⟩ := assembledPair member
    exact ⟨pair, inside, (pairInvolves pair.1 pair.2 scores label).mp involved⟩
  · rintro ⟨pair, inside, holds⟩
    obtain ⟨scores, member⟩ := pairAssembled memoryEfficient inside
    exact ⟨_, member, (pairInvolves pair.1 pair.2 scores label).mpr holds⟩

theorem assembledOneSided (targets : p.expected.length = p.examples)
    (rows : p.scores.length = p.examples) (label : Nat) :
    (Ranking.rocAuc (Report.judged (p.assembled memoryEfficient) p.scores label) : Option Float) =
      none ↔ p.OneSided label := by
  have count : p.scores.length = (p.assembled memoryEfficient).length := by
    simp [Pass.assembled, targets, rows, Pass.examples]
  have values : (Report.judged (p.assembled memoryEfficient) p.scores label).map (·.relevant) =
      p.expected.map fun expected => (t.expectedLabels expected).contains label := by
    have same : (p.assembled memoryEfficient).map (·.expectedLabels) = _ :=
      assembledExpected targets
    rw [Report.judgedRelevant count]
    simpa only [List.map_map, Function.comp_def, Example.expects] using
      congrArg (List.map (·.contains label)) same
  have relevant : ∀ b,
      (∀ x ∈ Report.judged (p.assembled memoryEfficient) p.scores label, x.relevant = b) ↔
        ∀ expected ∈ p.expected, (t.expectedLabels expected).contains label = b := by
    intro b
    rw [← List.forall_mem_map (P := (· = b)), values, List.forall_mem_map]
  rw [Ranking.rocAucNone, relevant, relevant, Pass.OneSided]
  simp

end Assembled

namespace Reporter

variable {r : Reporter} {m : Report Float} {log : List LogLine}

theorem metricsReport (aligned : Aligned r.rules r.pass) (reported : r.metrics = .ok (m, log)) :
    Report.compute r.labels (r.pass.assembled r.config.memoryEfficient) r.pass.loss r.options =
      .ok (m, log) := by
  obtain ⟨examples, finished, computed⟩ := bindOk.mp reported
  obtain ⟨_, _, _, failed⟩ | ⟨_, assembled, _⟩ := metricsCases aligned
  · rw [failed] at reported
    contradiction
  · rw [assembled] at finished
    cases Except.ok.inj finished
    exact computed

theorem metricsForms (aligned : Aligned r.rules r.pass) (reported : r.metrics = .ok (m, log)) :
    ((∃ k, r.kind = .topK k) ∨ r.config.memoryEfficient = true) ∧
      m.soft = none ∧ m.mcc = none ∧ m.rocAuc = none ∨
    ¬ ((∃ k, r.kind = .topK k) ∨ r.config.memoryEfficient = true) ∧
      m = Report.withScores r.labels (r.pass.assembled r.config.memoryEfficient) r.pass.scores
        r.config.thresholds (Report.hardOnly r.labels
          (r.pass.assembled r.config.memoryEfficient) r.pass.loss true) := by
  have scoreless : (r.kind.task.isRanked && r.options.soft) = false ↔
      (∃ k, r.kind = .topK k) ∨ r.config.memoryEfficient = true := by
    unfold options
    cases r.kind <;> simp [Task.isRanked]
  have kept : (r.kind.task.isRanked && r.options.soft) = true →
      Report.scoreRows r.labels.length (r.pass.assembled r.config.memoryEfficient) =
        .ok (some r.pass.scores) := by
    intro on
    have full : r.config.memoryEfficient = false := by
      simpa [options] using (Bool.and_eq_true_iff.mp on).2
    exact aligned.assembledScores full
  obtain ⟨off, same⟩ | ⟨on, withheld, _⟩ | ⟨rows, on, read, same⟩ :=
    Report.computeCases (metricsReport aligned reported)
  · refine .inl ⟨scoreless.mp off, ?_⟩
    rw [same]
    exact ⟨rfl, rfl, rfl⟩
  · cases (kept on).symm.trans withheld
  · cases (kept on).symm.trans read
    refine .inr ⟨fun without => ?_, same⟩
    rw [scoreless.mpr without] at on
    contradiction

theorem rocAucMissing (aligned : Aligned r.rules r.pass)
    (full : ¬ r.config.memoryEfficient = true) (label : Nat) :
    (Ranking.rocAuc (Report.judged (r.pass.assembled r.config.memoryEfficient) r.pass.scores
      label) : Option Float) = none ↔ r.pass.OneSided label :=
  assembledOneSided aligned.expected (aligned.kept (Bool.eq_false_iff.mpr full)).1 label

theorem softMissing (aligned : Aligned r.rules r.pass) (distinct : r.labels.Nodup)
    (reported : r.metrics = .ok (m, log)) {label : Nat} {name : String}
    (here : r.labels[label]? = some name) :
    (Selection.labelSoft m name = none ↔
      (∃ k, r.kind = .topK k) ∨ r.config.memoryEfficient = true) ∧
    ((Selection.labelSoft m name).bind (·.rocAuc) = none ↔
      (∃ k, r.kind = .topK k) ∨ r.config.memoryEfficient = true ∨ r.pass.OneSided label) := by
  obtain ⟨without, none, _, _⟩ | ⟨scored, rfl⟩ := metricsForms aligned reported
  · simp [Selection.labelSoft, none, without, ← or_assoc]
  · obtain ⟨_, full⟩ := not_or.mp scored
    rw [Selection.labelSoft, Report.withScoresSoft, Option.bind_some,
      Report.softFound distinct _ _ _ here, Option.bind_some, ← or_assoc, or_iff_right scored]
    exact ⟨by simp [scored], rocAucMissing aligned full label⟩

theorem binaryMissing (aligned : Aligned r.rules r.pass) (two : r.labels.length = 2)
    (reported : r.metrics = .ok (m, log)) :
    (m.mcc = none ↔ r.kind ≠ .singleLabel ∨ r.config.memoryEfficient = true) ∧
    (m.rocAuc = none ↔
      r.kind ≠ .singleLabel ∨ r.config.memoryEfficient = true ∨ r.pass.OneSided 0) := by
  obtain ⟨without, _, mcc, rocAuc⟩ | ⟨scored, rfl⟩ := metricsForms aligned reported
  · have other : r.kind ≠ .singleLabel ∨ r.config.memoryEfficient = true := by
      refine without.imp_left ?_
      rintro ⟨k, same⟩
      simp [same]
    simp [mcc, rocAuc, other, ← or_assoc]
  · obtain ⟨_, full⟩ := not_or.mp scored
    by_cases single : r.kind = .singleLabel
    · have binary : r.kind.task.isBinary = true := by rw [single]; rfl
      obtain ⟨mcc, rocAuc⟩ := Report.withScoresBinary binary two
        (r.pass.assembled r.config.memoryEfficient) r.pass.scores r.config.thresholds
        (Report.hardOnly r.labels (r.pass.assembled r.config.memoryEfficient) r.pass.loss true)
      rw [mcc, rocAuc, rocAucMissing aligned full]
      simp [single, full]
    · have other : r.kind.task.isBinary = false := by
        cases kind : r.kind <;> simp_all [Task.isBinary]
      obtain ⟨mcc, rocAuc⟩ := Report.withScoresOther r.labels other
        (r.pass.assembled r.config.memoryEfficient) r.pass.scores r.config.thresholds
        (Report.hardOnly r.labels (r.pass.assembled r.config.memoryEfficient) r.pass.loss true)
      rw [mcc, rocAuc]
      simp [single, Report.hardOnly]

theorem labelMissing (aligned : Aligned r.rules r.pass) (distinct : r.labels.Nodup)
    (reported : r.metrics = .ok (m, log)) {label : Nat} {name : String}
    (here : r.labels[label]? = some name) :
    m.hard.perLabel.find? name = none ↔ ¬ r.pass.Expects label ∧ ¬ r.pass.Predicts label := by
  have hard := (Report.computeParts (metricsReport aligned reported)).2.1
  have found := Report.tallyFound distinct aligned.assembledBelow name
  have only : (∃ label, r.labels[label]? = some name ∧
      ∃ x ∈ r.pass.assembled r.config.memoryEfficient, ∃ o, (label, o) ∈ x.confusions) ↔
        r.pass.Expects label ∨ r.pass.Predicts label := by
    have targets : r.pass.expected.length = r.pass.examples := aligned.expected
    rw [← assembledInvolves targets]
    constructor
    · rintro ⟨other, there, involved⟩
      obtain ⟨inside, _⟩ := List.getElem?_eq_some_iff.mp there
      have same : other = label := (List.getElem?_inj inside distinct).mp (there.trans here.symm)
      exact same ▸ involved
    · exact fun involved => ⟨label, here, involved⟩
  rw [hard]
  change ((Report.tally r.labels (r.pass.assembled r.config.memoryEfficient)).map
    Counts.scores).find? name = none ↔ _
  rw [Table.findMap, Option.map_eq_none_iff, ← Option.not_isSome_iff_eq_none, ← not_or, ← only]
  exact not_congr found

theorem lossMissing (aligned : Aligned r.rules r.pass) (reported : r.metrics = .ok (m, log)) :
    m.loss = none ↔ r.pass.losses = [] := by
  rw [(Report.computeParts (metricsReport aligned reported)).2.2, Pass.loss, Arithmetic.meanNone]

theorem valueMissing (aligned : Aligned r.rules r.pass) (distinct : r.labels.Nodup)
    (bound : Criterion.Bound r.config.metric r.config.targetLabel r.labels r.selection)
    (reported : r.metrics = .ok (m, log)) : r.selection.value? m = none ↔ r.Lacks := by
  have place : ∀ label, r.selection.label? = some label →
      r.labels[r.labels.idxOf label]? = some label := by
    intro label here
    exact List.getElem?_idxOf (bound.named label here).2
  have two : r.selection.criterion.precondition = .binaryLabels → r.labels.length = 2 :=
    bound.criterion ▸ bound.binary
  unfold Lacks
  cases chosen : r.selection with
  | accuracy => simp [Selection.value?]
  | macroF1 => simp [Selection.value?]
  | mcc => exact (binaryMissing aligned (two (by rw [chosen]; rfl)) reported).1
  | rocAuc => exact (binaryMissing aligned (two (by rw [chosen]; rfl)) reported).2
  | labelF1 label =>
    have missing := labelMissing aligned distinct reported (place label (by rw [chosen]; rfl))
    exact Option.map_eq_none_iff.trans missing
  | labelAveragePrecision label =>
    have missing := softMissing aligned distinct reported (place label (by rw [chosen]; rfl))
    exact Option.map_eq_none_iff.trans missing.1
  | labelRocAuc label =>
    exact (softMissing aligned distinct reported (place label (by rw [chosen]; rfl))).2
  | negativeLoss => exact Option.map_eq_none_iff.trans (lossMissing aligned reported)

end Reporter

theorem selectionAvailable {kind : Kind} {labels : List String} {config : Config} {r : Reporter}
    {log : List LogLine} (made : Reporter.new kind labels config = .ok (r, log))
    (calls : List Reporter.Call) {m : Report Float} {notes : List LogLine}
    (reported : (r.afterAll calls).metrics = .ok (m, notes)) :
    let s := r.afterAll calls
    (s.kind = kind ∧ s.labels = labels ∧ s.config = config) ∧
    Criterion.Bound config.metric config.targetLabel labels s.selection ∧
    ((∃ fault, s.selection.extract m = .error fault) ↔ s.Lacks) ∧
    ∀ fault, s.selection.extract m = .error fault →
      fault = .metricUnavailable s.selection.text "not present in the report" ∧
      fault.category = "metric_unavailable" := by
  intro s
  obtain ⟨distinct, resolved⟩ := Reporter.newChecked made
  have bound := Criterion.resolvedBound resolved
  have settings : s.kind = kind ∧ s.labels = labels ∧ s.config = config ∧
      s.selection = r.selection := by
    obtain ⟨sameKind, sameLabels, sameConfig, sameSelection⟩ := r.afterAllSettings calls
    obtain ⟨selection, rfl⟩ := Reporter.newFields made
    exact ⟨sameKind, sameLabels, sameConfig, sameSelection⟩
  obtain ⟨sameKind, sameLabels, sameConfig, sameSelection⟩ := settings
  rw [← sameSelection] at bound
  refine ⟨⟨sameKind, sameLabels, sameConfig⟩, bound, ?_, ?_⟩
  · rw [← sameConfig, ← sameLabels] at bound
    rw [s.selection.extractFails]
    exact Reporter.valueMissing (Reporter.reachedAligned made calls) (sameLabels ▸ distinct) bound
      reported
  · intro fault failed
    have cause := s.selection.extractFault failed
    exact ⟨cause, by rw [cause]; rfl⟩

def ranksYes : Reporter :=
  ⟨{ metric := .labelRocAuc, targetLabel := some "yes", thresholds := [] }, ["no", "yes"],
    .labelRocAuc "yes", .singleLabel, {}, []⟩

theorem ranksYesLacks :
    ∃ (m : Report Float) (notes : List LogLine) (fault : Fault),
      (ranksYes.afterAll [.add (scoredPair (labelPair 0 1) (labelPair 1 1))]).metrics =
        .ok (m, notes) ∧
      (Selection.labelRocAuc "yes").extract m = .error fault ∧
      fault.category = "metric_unavailable" := by
  obtain ⟨m, notes, reported⟩ : ∃ (m : Report Float) (notes : List LogLine),
      (ranksYes.afterAll [.add (scoredPair (labelPair 0 1) (labelPair 1 1))]).metrics =
        .ok (m, notes) := ⟨_, _, rfl⟩
  have made : Reporter.new .singleLabel ["no", "yes"] ranksYes.config =
      .ok (ranksYes, [Reporter.startedNote .singleLabel ["no", "yes"] (.labelRocAuc "yes")]) := rfl
  obtain ⟨_, _, available, unavailable⟩ := selectionAvailable made
    [.add (scoredPair (labelPair 0 1) (labelPair 1 1))] reported
  have oneSided : ∀ expected ∈ ([1, 1] : List Nat), 1 ∈ [expected] := by decide
  obtain ⟨fault, failed⟩ := available.mpr (.inr (.inr (.inr oneSided)))
  exact ⟨m, notes, fault, reported, failed, (unavailable fault failed).2⟩

end EvalReport
