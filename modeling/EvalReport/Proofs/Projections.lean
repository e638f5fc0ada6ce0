import EvalReport.Proofs.Availability
import EvalReport.Proofs.Doubles
import EvalReport.Proofs.MemoryMode

/-! What a pass reports of its labels, read back. A catalogue without repeated names takes each
name to one offset, so the names of the predictions and of the targets give the examples of the
pass again, in order and without their scores. A report of these examples counts the same. -/
namespace EvalReport

def offsets? (labels : List String) : List String → Option (List Nat)
  | [] => some []
  | name :: names => do
    let offset ← labels.idxOf? name
    let offsets ← offsets? labels names
    some (offset :: offsets)

namespace Task

/- The example of two reported labels. That of a top-k pass is not to be had: its candidates are
not reported. -/
def exampleOf? (labels : List String) : (t : Task) → ReportedLabel → ReportedLabel →
    Option (Example t)
  | singleLabel, .one predicted, .one expected => do
    some ⟨none, ← labels.idxOf? predicted, ← labels.idxOf? expected⟩
  | multiLabel, .several predicted, .several expected => do
    some ⟨none, ← offsets? labels predicted, ← offsets? labels expected⟩
  | _, _, _ => none

def examplesOf? (labels : List String) (t : Task) :
    List ReportedLabel → List ReportedLabel → Option (List (Example t))
  | [], [] => some []
  | predicted :: predictions, expected :: targets => do
    let x ← t.exampleOf? labels predicted expected
    let xs ← examplesOf? labels t predictions targets
    some (x :: xs)
  | _, _ => none

end Task

section Names

variable {labels : List String} (distinct : labels.Nodup)
include distinct

theorem offsetOfName {label : Nat} {name : String}
    (named : Task.labelName labels label = .ok name) : labels.idxOf? name = some label := by
  unfold Task.labelName at named
  split at named
  · rename_i here
    cases Except.ok.inj named
    obtain ⟨inside, same⟩ := List.getElem?_eq_some_iff.mp here
    refine List.idxOf?_eq_some_iff.mpr ⟨inside, same, fun earlier before again => ?_⟩
    have both := (List.Nodup.getElem_inj_iff distinct).mp (again.trans same.symm)
    omega
  · contradiction

theorem offsetsOfNames {offsets : List Nat} {names : List String}
    (named : List.Forall₂ (fun label name => Task.labelName labels label = .ok name)
      offsets names) : offsets? labels names = some offsets := by
  induction named with
  | nil => rfl
  | cons one _ ih => simp [offsets?, offsetOfName distinct one, ih]

theorem exampleOfReported {t : Task} (ranked : t.isRanked = true) {row : t.Row}
    {expected : t.Expected} {predictedName expectedName : ReportedLabel}
    (first : t.reportPredicted labels row = .ok predictedName)
    (second : t.reportExpected labels expected = .ok expectedName) :
    t.exampleOf? labels predictedName expectedName = some (t.assemble row expected none) := by
  cases t with
  | singleLabel =>
    obtain ⟨name, named, rfl⟩ := mapOk.mp first
    obtain ⟨other, namedToo, rfl⟩ := mapOk.mp second
    simp [Task.exampleOf?, offsetOfName distinct named, offsetOfName distinct namedToo,
      Task.assemble]
  | multiLabel =>
    obtain ⟨names, named, rfl⟩ := mapOk.mp first
    obtain ⟨others, namedToo, rfl⟩ := mapOk.mp second
    simp [Task.exampleOf?, offsetsOfNames distinct (collectOkExact.mp named),
      offsetsOfNames distinct (collectOkExact.mp namedToo), Task.assemble]
  | topK => contradiction

theorem examplesOfReported {t : Task} (ranked : t.isRanked = true) {rows : List t.Row}
    {expected : List t.Expected} {predictions targets : List ReportedLabel}
    (aligned : expected.length = rows.length)
    (first : collectOk (t.reportPredicted labels) rows = .ok predictions)
    (second : collectOk (t.reportExpected labels) expected = .ok targets) :
    t.examplesOf? labels predictions targets =
      some ((rows.zip expected).map fun e => t.assemble e.1 e.2 none) := by
  replace first := collectOkExact.mp first
  replace second := collectOkExact.mp second
  induction first generalizing expected targets with
  | nil =>
    obtain rfl : expected = [] := List.length_eq_zero_iff.mp aligned
    cases second
    rfl
  | @cons row name rows names one _ ih =>
    cases second with
    | nil => contradiction
    | cons other others =>
      have rest := ih (Nat.succ.inj aligned) others
      simp [Task.examplesOf?, exampleOfReported distinct ranked one other, rest]

end Names

/-! ### Reports of the examples read back -/

theorem assembledBare {t : Task} (p : Pass t) (memoryEfficient : Bool) :
    (p.assembled memoryEfficient).map Example.withhold =
      (p.predicted.zip p.expected).map fun e => t.assemble e.1 e.2 none := by
  simp only [Pass.assembled, List.map_map, Function.comp_def, assembleWithheld]
  conv_rhs => rw [← List.zipIdx_map_fst 0 (p.predicted.zip p.expected), List.map_map]
  rfl

namespace Report

variable {t : Task} {labels : List String} {xs : List (Example t)}

theorem computeBare {α : Type} [Arithmetic α]
    (below : ∀ x ∈ xs, ∀ label ∈ x.referenced, label < labels.length) (loss : Option α)
    (options : ReportOptions α) :
    ∃ again notes, compute labels (xs.map Example.withhold) loss options = .ok (again, notes) ∧
      again.accuracy = Arithmetic.share (total Example.hits xs) (total Example.opportunities xs) ∧
      again.hard = (tally labels xs).scores options.keepLabels := by
  obtain ⟨again, notes, computed⟩ : ∃ again notes,
      compute labels (xs.map Example.withhold) loss options = .ok (again, notes) := by
    have clear : strayLabel labels.length (xs.map Example.withhold) = none :=
      strayLabelNone.mpr (List.forall_mem_map.mpr below)
    unfold compute
    rw [clear]
    dsimp only
    split
    · cases xs with
      | nil => exact ⟨_, _, rfl⟩
      | cons x rest => exact ⟨_, _, rfl⟩
    · exact ⟨_, _, rfl⟩
  obtain ⟨accuracy, hard, _⟩ := computeParts computed
  have plain := hardOnlyWithheld labels xs loss options.keepLabels
  refine ⟨again, notes, computed, ?_, ?_⟩
  · rw [accuracy]
    exact congrArg Report.accuracy plain
  · rw [hard]
    exact congrArg Report.hard plain

theorem oneHit (single : t = .singleLabel) {predicted expected : ReportedLabel} {x : Example t}
    (read : t.exampleOf? labels predicted expected = some x) :
    x.hits = (if predicted = expected then 1 else 0) ∧ x.opportunities = 1 := by
  subst single
  cases predicted with
  | several names => cases expected <;> contradiction
  | one name =>
    cases expected with
    | several names => contradiction
    | one other =>
      simp only [Task.exampleOf?, bind, Option.bind_eq_some_iff] at read
      obtain ⟨i, first, j, second, last⟩ := read
      cases Option.some.inj last
      refine ⟨?_, rfl⟩
      change ([j] : List Nat).countP ([i] : List Nat).contains = _
      by_cases same : name = other
      · subst same
        cases first.symm.trans second
        simp
      · have apart : j ≠ i := by
          rintro rfl
          obtain ⟨_, here, _⟩ := List.idxOf?_eq_some_iff.mp first
          obtain ⟨_, there, _⟩ := List.idxOf?_eq_some_iff.mp second
          exact same (here.symm.trans there)
        simp [same, apart]

theorem hitsMatched (single : t = .singleLabel) {predictions targets : List ReportedLabel}
    (read : t.examplesOf? labels predictions targets = some xs) :
    total Example.hits xs = (predictions.zip targets).countP (fun e => e.1 = e.2) ∧
      total Example.opportunities xs = predictions.length := by
  simp only [totalSum]
  induction predictions generalizing targets xs with
  | nil =>
    cases targets with
    | nil =>
      cases Option.some.inj read
      exact ⟨rfl, rfl⟩
    | cons => contradiction
  | cons predicted predictions ih =>
    cases targets with
    | nil => contradiction
    | cons expected targets =>
      simp only [Task.examplesOf?, bind, Option.bind_eq_some_iff] at read
      obtain ⟨x, one, rest, others, last⟩ := read
      cases Option.some.inj last
      obtain ⟨hit, opportunity⟩ := oneHit single one
      obtain ⟨hits, opportunities⟩ := ih others
      simp only [List.map_cons, List.sum_cons, List.zip_cons_cons, List.countP_cons,
        List.length_cons, hit, opportunity, hits, opportunities, decide_eq_true_eq]
      omega

end Report

theorem projectionsFaithful {kind : Kind} {labels : List String} {config : Config} {r : Reporter}
    {log : List LogLine} (made : Reporter.new kind labels config = .ok (r, log))
    (ranked : kind.task.isRanked = true) (calls : List Reporter.Call) :
    let s := r.afterAll calls
    ∃ predictions targets xs, s.predictions = .ok predictions ∧ s.targets = .ok targets ∧
      predictions.length = s.pass.examples ∧ targets.length = s.pass.examples ∧
      s.kind.task.examplesOf? labels predictions targets = some xs ∧
      xs = (s.pass.assembled s.config.memoryEfficient).map Example.withhold ∧
      ∀ m notes, s.metrics = .ok (m, notes) →
        (∀ loss soft thresholds, ∃ again notes',
          Report.compute labels xs loss ⟨soft, thresholds, true⟩ = .ok (again, notes') ∧
            again.accuracy = m.accuracy ∧ again.hard = m.hard) ∧
        (kind = .singleLabel → m.accuracy = if predictions = [] then 0 else
          Float.ofNat ((predictions.zip targets).countP fun e => e.1 = e.2) /
            Float.ofNat predictions.length) := by
  intro s
  have aligned : Aligned s.rules s.pass := Reporter.reachedAligned made calls
  obtain ⟨distinct, _⟩ := Reporter.newChecked made
  obtain ⟨sameKind, sameLabels⟩ : s.kind = kind ∧ s.labels = labels := by
    obtain ⟨sameKind, sameLabels, _⟩ := r.afterAllSettings calls
    obtain ⟨selection, rfl⟩ := Reporter.newFields made
    exact ⟨sameKind, sameLabels⟩
  obtain ⟨predictions, projected, counted⟩ := Reporter.predictionsOk aligned
  obtain ⟨targets, projectedToo, countedToo⟩ := Reporter.targetsOk aligned
  rw [← sameKind] at ranked ⊢
  subst sameLabels
  have read := examplesOfReported distinct ranked aligned.expected projected projectedToo
  rw [← assembledBare s.pass s.config.memoryEfficient] at read
  refine ⟨predictions, targets, _, projected, projectedToo, counted, countedToo, read, rfl, ?_⟩
  intro m notes reported
  obtain ⟨accuracy, hard, _⟩ := Report.computeParts (Reporter.metricsReport aligned reported)
  constructor
  · intro loss soft thresholds
    rw [accuracy, hard]
    exact Report.computeBare aligned.assembledBelow loss ⟨soft, thresholds, true⟩
  · intro single
    obtain ⟨hits, opportunities⟩ := Report.hitsMatched (congrArg Kind.task single) read
    rw [Report.totalWithheld fun _ => rfl] at hits opportunities
    rw [accuracy, hits, opportunities]
    split
    · rename_i none
      rw [none]
      exact Arithmetic.shareNothing Arithmetic.countsDoubles _
    · rename_i some
      exact Arithmetic.shareQuotient Arithmetic.countsDoubles _ (List.length_pos_iff.mpr some)

theorem yesPairReadBack :
    ∃ (m : Report Float) (notes : List LogLine),
      ((Reporter.yesNo .singleLabel).afterAll
        [.add (scoredPair (labelPair 1 1) (labelPair 0 1))]).metrics = .ok (m, notes) ∧
      Task.singleLabel.examplesOf? ["no", "yes"] [.one "yes", .one "yes"] [.one "no", .one "yes"] =
        some [⟨none, (1 : Nat), (0 : Nat)⟩, ⟨none, (1 : Nat), (1 : Nat)⟩] ∧
      m.accuracy = 1 / 2 := by
  obtain ⟨m, notes, reported⟩ : ∃ (m : Report Float) (notes : List LogLine),
      ((Reporter.yesNo .singleLabel).afterAll
        [.add (scoredPair (labelPair 1 1) (labelPair 0 1))]).metrics = .ok (m, notes) :=
    ⟨_, _, rfl⟩
  obtain ⟨predictions, targets, xs, projected, projectedToo, _, _, read, same, reports⟩ :=
    projectionsFaithful (Reporter.yesNoMade .singleLabel) rfl
      [.add (scoredPair (labelPair 1 1) (labelPair 0 1))]
  obtain rfl : [.one "yes", .one "yes"] = predictions := Except.ok.inj projected
  obtain rfl : [.one "no", .one "yes"] = targets := Except.ok.inj projectedToo
  have accuracy : m.accuracy = Float.ofNat 1 / Float.ofNat 2 := (reports m notes reported).2 rfl
  exact ⟨m, notes, reported, read.trans (congrArg some same), accuracy⟩

end EvalReport
