import EvalReport.Proofs.Bounds
import EvalReport.Proofs.ReporterRun

/-! The parts of a pass line up, whatever was done to the reporter: one expected row and, in full
mode, one score row for each predicted row, and no label past the catalogue. So a report can only
fail for a context column of another length, and names are found for all rows. -/
namespace EvalReport

structure Aligned (rules : PassRules) (p : Pass rules.kind.task) : Prop where
  expected : p.expected.length = p.predicted.length
  withheld : rules.memoryEfficient = true → p.scores = []
  kept : rules.memoryEfficient = false →
    p.scores.length = p.predicted.length ∧ ∀ row ∈ p.scores, row.length = rules.catalogue
  predictedLabels : ∀ row ∈ p.predicted, ∀ label ∈ rules.kind.task.rowLabels row,
    label < rules.catalogue
  expectedLabels : ∀ row ∈ p.expected, ∀ label ∈ rules.kind.task.expectedLabels row,
    label < rules.catalogue
  batchSizes : p.batchSizes.length = p.batches
  losses : p.losses.length ≤ p.batches

namespace Aligned

variable {rules : PassRules}

theorem fresh (rules : PassRules) : Aligned rules {} :=
  ⟨rfl, fun _ => rfl, fun _ => ⟨rfl, by simp⟩, by simp, by simp, rfl, Nat.le_refl 0⟩

theorem decodedScores (x : Accepted rules) :
    (rules.memoryEfficient = true → x.rows.scores = []) ∧
    (rules.memoryEfficient = false → x.rows.scores.length = x.rows.predicted.length ∧
      ∀ row ∈ x.rows.scores, row.length = rules.catalogue) := by
  obtain ⟨counted, kept⟩ := keptScoresExact.mp (decodedExact.mp x.source).kept
  constructor
  · intro efficient
    simpa [efficient] using kept
  · intro full
    simp only [full] at kept
    obtain ⟨scores, present, wide, same⟩ := kept
    rw [same]
    exact ⟨counted scores present, fun row member => (scores.even row member).trans wide⟩

theorem appended {p : Pass rules.kind.task} (aligned : Aligned rules p) (x : Accepted rules)
    (size : Nat) (loss : Option Float) (context : Table ContextValue) :
    Aligned rules (p.append x.rows size loss context) where
  expected := by
    have added := (decodedExact.mp x.source).aligned
    simp [Pass.append, aligned.expected, added]
  withheld efficient := by
    simp [Pass.append, aligned.withheld efficient, (decodedScores x).1 efficient]
  kept full := by
    obtain ⟨oldCount, oldWidths⟩ := aligned.kept full
    obtain ⟨newCount, newWidths⟩ := (decodedScores x).2 full
    refine ⟨by simp [Pass.append, oldCount, newCount], ?_⟩
    intro row member
    rcases List.mem_append.mp member with old | new
    · exact oldWidths row old
    · exact newWidths row new
  predictedLabels row member := by
    rcases List.mem_append.mp member with old | new
    · exact aligned.predictedLabels row old
    · exact predictedRowsBelow (decodedExact.mp x.source).predicted row new
  expectedLabels row member := by
    rcases List.mem_append.mp member with old | new
    · exact aligned.expectedLabels row old
    · exact expectedRowsBelow (decodedExact.mp x.source).expected row new
  batchSizes := by simp [Pass.append, aligned.batchSizes]
  losses := by
    have old := aligned.losses
    cases loss with
    | none => simp only [Pass.append, Option.toList_none, List.append_nil]; omega
    | some value => simp only [Pass.append, Option.toList_some, List.length_append,
        List.length_singleton]; omega

theorem received (p : Pass rules.kind.task) (a : Arrival) (aligned : Aligned rules p) :
    Aligned rules (rules.receive p a).pass := by
  obtain ⟨_, _, same⟩ | ⟨x, _, _, same⟩ := PassRules.receiveCases p a
  · rw [same]
    exact aligned
  · rw [same]
    exact aligned.appended x _ _ _

end Aligned

/-! ### The examples of a pass -/

section Assemble

variable {t : Task}

def Pass.assembled (p : Pass t) (memoryEfficient : Bool) : List (Example t) :=
  (p.predicted.zip p.expected).zipIdx.map fun ((row, expected), i) =>
    t.assemble row expected (if memoryEfficient then none else p.scores[i]?)

theorem Pass.strayColumnNone {p : Pass t} :
    p.strayColumn = none ↔ ∀ column ∈ p.context.entries, column.2.length = p.examples := by
  simp [Pass.strayColumn]

section Finish

variable {p : Pass t} {memoryEfficient : Bool} (targets : p.expected.length = p.examples)
  (rows : memoryEfficient = false → p.scores.length = p.examples)

include targets rows

theorem Pass.finishStray {column : String × List Json} (stray : p.strayColumn = some column) :
    p.finish memoryEfficient =
      .error (.dimensionMismatch (.contextValues column.1 p.examples column.2.length)) := by
  unfold Pass.finish
  rw [if_neg (not_not.mpr targets), if_neg (by simpa using rows), stray]

theorem Pass.finishEven (even : p.strayColumn = none) :
    p.finish memoryEfficient = .ok (p.assembled memoryEfficient) := by
  unfold Pass.finish
  rw [if_neg (not_not.mpr targets), if_neg (by simpa using rows), even]
  rfl

end Finish

theorem assembleScores (row : t.Row) (expected : t.Expected) (scores : Option (List Score)) :
    (t.assemble row expected scores).scores = scores := by
  cases t <;> rfl

theorem assembleExpected (row : t.Row) (expected : t.Expected) (scores : Option (List Score)) :
    (t.assemble row expected scores).expectedLabels = t.expectedLabels expected := by
  cases t <;> rfl

theorem assembleReferenced {row : t.Row} {expected : t.Expected} {scores : Option (List Score)}
    {label : Nat} (member : label ∈ (t.assemble row expected scores).referenced) :
    label ∈ t.rowLabels row ∨ label ∈ t.expectedLabels expected := by
  rcases List.mem_append.mp member with predicted | expected
  · left
    cases t with
    | singleLabel => exact predicted
    | multiLabel => exact predicted
    | topK => exact List.mem_cons_of_mem _ predicted
  · right
    cases t <;> exact expected

theorem assembledPair {p : Pass t} {memoryEfficient : Bool} {x : Example t}
    (member : x ∈ p.assembled memoryEfficient) :
    ∃ pair ∈ p.predicted.zip p.expected, ∃ scores, x = t.assemble pair.1 pair.2 scores := by
  obtain ⟨⟨⟨row, expected⟩, i⟩, inside, rfl⟩ := List.mem_map.mp member
  exact ⟨(row, expected), List.fst_mem_of_mem_zipIdx inside, _, rfl⟩

theorem pairAssembled {p : Pass t} (memoryEfficient : Bool) {pair : t.Row × t.Expected}
    (member : pair ∈ p.predicted.zip p.expected) :
    ∃ scores, t.assemble pair.1 pair.2 scores ∈ p.assembled memoryEfficient := by
  obtain ⟨i, inside, rfl⟩ := List.mem_iff_getElem.mp member
  refine ⟨_, List.mem_map.mpr ⟨((p.predicted.zip p.expected)[i], i), ?_, rfl⟩⟩
  exact List.mem_zipIdx_iff_getElem?.mpr (List.getElem?_eq_getElem inside)

theorem assembledSource {p : Pass t} {memoryEfficient : Bool} {x : Example t}
    (member : x ∈ p.assembled memoryEfficient) :
    ∃ row ∈ p.predicted, ∃ expected ∈ p.expected, ∃ scores, x = t.assemble row expected scores := by
  obtain ⟨pair, inside, scores, rfl⟩ := assembledPair member
  exact ⟨pair.1, (List.of_mem_zip inside).1, pair.2, (List.of_mem_zip inside).2, scores, rfl⟩

end Assemble

namespace Aligned

variable {rules : PassRules} {p : Pass rules.kind.task}

theorem finishStray (aligned : Aligned rules p) {column : String × List Json}
    (stray : p.strayColumn = some column) :
    p.finish rules.memoryEfficient =
      .error (.dimensionMismatch (.contextValues column.1 p.examples column.2.length)) :=
  Pass.finishStray aligned.expected (fun full => (aligned.kept full).1) stray

theorem finishEven (aligned : Aligned rules p) (even : p.strayColumn = none) :
    p.finish rules.memoryEfficient = .ok (p.assembled rules.memoryEfficient) :=
  Pass.finishEven aligned.expected (fun full => (aligned.kept full).1) even

theorem assembledLength (aligned : Aligned rules p) (memoryEfficient : Bool) :
    (p.assembled memoryEfficient).length = p.examples := by
  simp [Pass.assembled, Pass.examples, aligned.expected]

theorem assembledBelow (aligned : Aligned rules p) :
    ∀ x ∈ p.assembled rules.memoryEfficient, ∀ label ∈ x.referenced, label < rules.catalogue := by
  intro x member label referenced
  obtain ⟨row, inPredicted, expected, inExpected, scores, rfl⟩ := assembledSource member
  rcases assembleReferenced referenced with ofRow | ofExpected
  · exact aligned.predictedLabels row inPredicted label ofRow
  · exact aligned.expectedLabels expected inExpected label ofExpected

theorem assembledScores (aligned : Aligned rules p) (full : rules.memoryEfficient = false) :
    Report.scoreRows rules.catalogue (p.assembled rules.memoryEfficient) = .ok (some p.scores) := by
  obtain ⟨count, widths⟩ := aligned.kept full
  refine Report.scoreRowsExact.mpr ⟨?_, widths⟩
  apply List.ext_getElem
  · simp [Pass.assembled, aligned.expected, count]
  · intro i left right
    have inside : i < p.scores.length := by simpa using right
    simp [Pass.assembled, assembleScores, full, inside]

end Aligned

/-! ### Reports and projections -/

theorem Report.computeOk {t : Task} {α : Type} [Arithmetic α] {labels : List String}
    {xs : List (Example t)} {loss : Option α} {options : ReportOptions α}
    (below : ∀ x ∈ xs, ∀ label ∈ x.referenced, label < labels.length)
    (scored : options.soft = true → ∃ rows, scoreRows labels.length xs = .ok (some rows)) :
    ∃ made, compute labels xs loss options = .ok made := by
  unfold compute
  rw [strayLabelNone.mpr below]
  dsimp only
  split
  · rename_i soft
    obtain ⟨rows, read⟩ := scored (Bool.and_eq_true_iff.mp soft).2
    rw [read]
    exact ⟨_, rfl⟩
  · exact ⟨_, rfl⟩

theorem Report.computeReferenced {t : Task} {α : Type} [Arithmetic α] {labels : List String}
    {xs : List (Example t)} {loss : Option α} {options : ReportOptions α}
    {made : Report α × List LogLine} (passed : compute labels xs loss options = .ok made) :
    ∀ x ∈ xs, ∀ label ∈ x.referenced, label < labels.length := by
  unfold compute at passed
  split at passed
  · contradiction
  · rename_i clear
    exact strayLabelNone.mp clear

theorem Report.computeCases {t : Task} {α : Type} [Arithmetic α] {labels : List String}
    {xs : List (Example t)} {loss : Option α} {options : ReportOptions α} {r : Report α}
    {log : List LogLine} (made : compute labels xs loss options = .ok (r, log)) :
    ((t.isRanked && options.soft) = false ∧ r = hardOnly labels xs loss options.keepLabels) ∨
    ((t.isRanked && options.soft) = true ∧ scoreRows labels.length xs = .ok none ∧
      r = hardOnly labels xs loss options.keepLabels) ∨
    ∃ rows, (t.isRanked && options.soft) = true ∧ scoreRows labels.length xs = .ok (some rows) ∧
      r = withScores labels xs rows options.thresholds
        (hardOnly labels xs loss options.keepLabels) := by
  unfold compute at made
  split at made
  · contradiction
  · dsimp only at made
    split at made
    · rename_i soft
      split at made
      · contradiction
      · rename_i read
        cases Except.ok.inj made
        exact .inr (.inl ⟨soft, read, rfl⟩)
      · rename_i rows read
        cases Except.ok.inj made
        exact .inr (.inr ⟨rows, soft, read, rfl⟩)
    · rename_i hard
      cases Except.ok.inj made
      exact .inl ⟨Bool.eq_false_iff.mpr hard, rfl⟩

theorem Report.withScoresParts {t : Task} {α : Type} [Arithmetic α] (labels : List String)
    (xs : List (Example t)) (rows : List (List Score)) (thresholds : List α) (r : Report α) :
    (withScores labels xs rows thresholds r).accuracy = r.accuracy ∧
      (withScores labels xs rows thresholds r).hard = r.hard ∧
      (withScores labels xs rows thresholds r).loss = r.loss := by
  unfold withScores
  dsimp only
  split <;> exact ⟨rfl, rfl, rfl⟩

theorem Report.computeParts {t : Task} {α : Type} [Arithmetic α] {labels : List String}
    {xs : List (Example t)} {loss : Option α} {options : ReportOptions α} {r : Report α}
    {log : List LogLine} (made : compute labels xs loss options = .ok (r, log)) :
    r.accuracy = Arithmetic.share (total Example.hits xs) (total Example.opportunities xs) ∧
      r.hard = (tally labels xs).scores options.keepLabels ∧ r.loss = loss := by
  obtain ⟨_, rfl⟩ | ⟨_, _, rfl⟩ | ⟨rows, _, _, rfl⟩ := computeCases made
  · exact ⟨rfl, rfl, rfl⟩
  · exact ⟨rfl, rfl, rfl⟩
  · exact withScoresParts ..

theorem labelNameOk {labels : List String} {label : Nat} (below : label < labels.length) :
    Task.labelName labels label = .ok labels[label] := by
  simp [Task.labelName, below]

theorem reportSeveralOk {labels : List String} {offsets : List Nat}
    (below : ∀ label ∈ offsets, label < labels.length) :
    ∃ names, Task.reportSeveral labels offsets = .ok names := by
  obtain ⟨names, read⟩ : ∃ names, collectOk (Task.labelName labels) offsets = .ok names :=
    collectOkAll fun label member => ⟨_, labelNameOk (below label member)⟩
  exact ⟨.several names, mapOk.mpr ⟨names, read, rfl⟩⟩

theorem reportOneOk {labels : List String} {label : Nat} (below : label < labels.length) :
    ∃ names, Task.reportOne labels label = .ok names :=
  ⟨_, mapOk.mpr ⟨_, labelNameOk below, rfl⟩⟩

theorem reportPredictedOk {t : Task} {labels : List String} {row : t.Row}
    (below : ∀ label ∈ t.rowLabels row, label < labels.length) :
    ∃ names, t.reportPredicted labels row = .ok names := by
  cases t with
  | singleLabel => exact reportOneOk (below row List.mem_cons_self)
  | multiLabel => exact reportSeveralOk below
  | topK => exact reportOneOk (below row.argmax List.mem_cons_self)

theorem reportExpectedOk {t : Task} {labels : List String} {expected : t.Expected}
    (below : ∀ label ∈ t.expectedLabels expected, label < labels.length) :
    ∃ names, t.reportExpected labels expected = .ok names := by
  cases t with
  | singleLabel => exact reportOneOk (below expected List.mem_cons_self)
  | multiLabel => exact reportSeveralOk below
  | topK => exact reportOneOk (below expected List.mem_cons_self)

namespace Reporter

variable {r : Reporter}

theorem predictionsOk (aligned : Aligned r.rules r.pass) :
    ∃ names, r.predictions = .ok names ∧ names.length = r.pass.examples := by
  obtain ⟨names, read⟩ : ∃ names, r.predictions = .ok names :=
    collectOkAll fun row member => reportPredictedOk (aligned.predictedLabels row member)
  exact ⟨names, read, collectOkLength read⟩

theorem targetsOk (aligned : Aligned r.rules r.pass) :
    ∃ names, r.targets = .ok names ∧ names.length = r.pass.examples := by
  obtain ⟨names, read⟩ : ∃ names, r.targets = .ok names :=
    collectOkAll fun row member => reportExpectedOk (aligned.expectedLabels row member)
  exact ⟨names, read, (collectOkLength read).trans aligned.expected⟩

theorem assembledReport (aligned : Aligned r.rules r.pass) :
    ∃ made, Report.compute r.labels (r.pass.assembled r.config.memoryEfficient) r.pass.loss
      r.options = .ok made := by
  refine Report.computeOk aligned.assembledBelow fun soft => ?_
  have full : r.config.memoryEfficient = false := by simpa [options] using soft
  exact ⟨r.pass.scores, aligned.assembledScores full⟩

theorem metricsCases (aligned : Aligned r.rules r.pass) :
    (∃ key values, r.pass.strayColumn = some (key, values) ∧
      r.metrics = .error (.dimensionMismatch
        (.contextValues key r.pass.examples values.length))) ∨
    (r.pass.strayColumn = none ∧
      r.pass.finish r.config.memoryEfficient = .ok (r.pass.assembled r.config.memoryEfficient) ∧
      ∃ made, r.metrics = .ok made) := by
  cases stray : r.pass.strayColumn with
  | some column =>
    obtain ⟨key, values⟩ := column
    refine .inl ⟨key, values, rfl, ?_⟩
    rw [metrics, show r.pass.finish r.config.memoryEfficient = _ from aligned.finishStray stray]
    rfl
  | none =>
    have finished : r.pass.finish r.config.memoryEfficient = _ := aligned.finishEven stray
    obtain ⟨made, computed⟩ := assembledReport aligned
    refine .inr ⟨rfl, finished, made, ?_⟩
    rw [metrics, finished]
    exact computed

theorem strayColumnSource {key : String} {values : List Json}
    (stray : r.pass.strayColumn = some (key, values)) :
    (key, values) ∈ r.pass.context.entries ∧ values.length ≠ r.pass.examples := by
  have differs := List.find?_some stray
  exact ⟨List.mem_of_find?_eq_some stray, by simpa using differs⟩

theorem metricsFail (aligned : Aligned r.rules r.pass) :
    (∃ fault, r.metrics = .error fault) ↔
      ∃ column ∈ r.pass.context.entries, column.2.length ≠ r.pass.examples := by
  obtain ⟨key, values, stray, failed⟩ | ⟨none, _, report, succeeded⟩ := metricsCases aligned
  · have source := strayColumnSource stray
    exact ⟨fun _ => ⟨(key, values), source⟩, fun _ => ⟨_, failed⟩⟩
  · have even := Pass.strayColumnNone.mp none
    constructor
    · intro failing
      obtain ⟨fault, failed⟩ := failing
      rw [succeeded] at failed
      contradiction
    · intro straying
      obtain ⟨column, member, differs⟩ := straying
      exact absurd (even column member) differs

theorem metricsFault (aligned : Aligned r.rules r.pass) {fault : Fault}
    (failed : r.metrics = .error fault) :
    fault.category = "dimension_mismatch" ∧
      ∃ column ∈ r.pass.context.entries, column.2.length ≠ r.pass.examples ∧
        fault = .dimensionMismatch
          (.contextValues column.1 r.pass.examples column.2.length) := by
  obtain ⟨key, values, stray, failure⟩ | ⟨_, _, report, succeeded⟩ := metricsCases aligned
  · rw [failure] at failed
    cases Except.error.inj failed
    obtain ⟨member, differs⟩ := strayColumnSource stray
    exact ⟨rfl, (key, values), member, differs, rfl⟩
  · rw [succeeded] at failed
    contradiction

theorem reachedAligned {kind : Kind} {labels : List String} {config : Config} {log : List LogLine}
    (made : Reporter.new kind labels config = .ok (r, log)) (calls : List Call) :
    Aligned (r.afterAll calls).rules (r.afterAll calls).pass := by
  obtain ⟨selection, rfl⟩ := newFields made
  exact afterAllInvariant Aligned.fresh (fun _ => Aligned.received) _ (Aligned.fresh _) calls

theorem fedAligned {kind : Kind} {labels : List String} {config : Config} {log : List LogLine}
    (made : Reporter.new kind labels config = .ok (r, log)) (xs : List Arrival) :
    Aligned (r.feed xs).rules (r.feed xs).pass := by
  rw [feedAfterAll]
  exact reachedAligned made _

end Reporter

theorem reachedPassesLineUp {kind : Kind} {labels : List String} {config : Config} {r : Reporter}
    {log : List LogLine} (made : Reporter.new kind labels config = .ok (r, log))
    (calls : List Reporter.Call) :
    let s := r.afterAll calls
    (s.kind = kind ∧ s.labels = labels ∧ s.config = config) ∧
    Aligned s.rules s.pass ∧
    ((∃ fault, s.metrics = .error fault) ↔
      ∃ column ∈ s.pass.context.entries, column.2.length ≠ s.pass.examples) ∧
    (∀ fault, s.metrics = .error fault → fault.category = "dimension_mismatch" ∧
      ∃ column ∈ s.pass.context.entries, column.2.length ≠ s.pass.examples ∧
        fault = .dimensionMismatch
          (.contextValues column.1 s.pass.examples column.2.length)) ∧
    (∀ examples, s.pass.finish s.config.memoryEfficient = .ok examples →
      Report.compute? s.labels examples s.pass.loss s.options =
        some (Report.compute s.labels examples s.pass.loss s.options)) ∧
    (∃ names, s.predictions = .ok names ∧ names.length = s.pass.examples) ∧
    ∃ names, s.targets = .ok names ∧ names.length = s.pass.examples := by
  intro s
  have aligned : Aligned s.rules s.pass := Reporter.reachedAligned made calls
  have settings : s.kind = kind ∧ s.labels = labels ∧ s.config = config := by
    obtain ⟨sameKind, sameLabels, sameConfig, _⟩ := r.afterAllSettings calls
    obtain ⟨selection, rfl⟩ := Reporter.newFields made
    exact ⟨sameKind, sameLabels, sameConfig⟩
  exact ⟨settings, aligned, Reporter.metricsFail aligned, fun _ => Reporter.metricsFault aligned,
    fun _ _ => Report.computeInBounds .., Reporter.predictionsOk aligned,
    Reporter.targetsOk aligned⟩

/- The second pair is turned away; the third brings no texts. -/
def textsOfOnePair : List Reporter.Call :=
  [.add (scoredPair (labelPair 0 1) (labelPair 0 1)),
    .add (scoredPair (labelPair 0 2) (labelPair 0 1)),
    .add { scoredPair (labelPair 1 1) (labelPair 0 1) with context := ∅ }]

theorem textsOfOnePairMissed :
    ((Reporter.yesNo .singleLabel).afterAll textsOfOnePair).pass.examples = 4 ∧
    Aligned ((Reporter.yesNo .singleLabel).afterAll textsOfOnePair).rules
      ((Reporter.yesNo .singleLabel).afterAll textsOfOnePair).pass ∧
    ∃ fault, ((Reporter.yesNo .singleLabel).afterAll textsOfOnePair).metrics = .error fault := by
  obtain ⟨_, aligned, failing, _⟩ :=
    reachedPassesLineUp (Reporter.yesNoMade .singleLabel) textsOfOnePair
  have column : ((Reporter.yesNo .singleLabel).afterAll textsOfOnePair).pass.context.entries =
      [("text", [.string "a", .string "b"])] := rfl
  refine ⟨rfl, aligned, failing.mpr ⟨("text", [.string "a", .string "b"]), ?_, by decide⟩⟩
  rw [column]
  exact List.mem_singleton.mpr rfl

end EvalReport
