import EvalReport.Proofs.Candidates
import EvalReport.Proofs.Doubles
import EvalReport.Proofs.PairedRuns
import Mathlib.Algebra.Order.BigOperators.Group.List

/-! What more candidates do to a top-k report. A longer list only adds labels behind the ones it
had, so hits stay hits and what is missed either way is charged alike: accuracy and true positives
do not fall, wrong counts do not rise, and with a candidate for every label nothing is missed. -/
namespace EvalReport

/-! ### One example -/

structure Example.Widened {t u : Task} (x : Example t) (y : Example u) : Prop where
  candidates : x.predictedLabels <+: y.predictedLabels
  expected : x.expectedLabels = y.expectedLabels
  single : x.opportunities = 1
  kept : x.hits = 1 → y.hits = 1
  missed : x.hits = 0 → y.hits = 0 → x.confusions = y.confusions
  found : ∀ label, x.confusions.count (label, .truePositive) ≤
    y.confusions.count (label, .truePositive)
  spared : ∀ label o, o ≠ .truePositive →
    y.confusions.count (label, o) ≤ x.confusions.count (label, o)

namespace Example

variable {x y : Example .topK}

theorem widenedAlike (candidates : x.predicted <+: y.predicted) (expected : x.expected = y.expected)
    (hits : x.hits = y.hits) (same : x.confusions = y.confusions) : x.Widened y where
  candidates := candidates
  expected := congrArg (fun e => [e]) expected
  single := rfl
  kept := hits.symm.trans
  missed _ _ := same
  found _ := (congrArg _ same).le
  spared _ _ _ := (congrArg _ same).ge

theorem widened (candidates : x.predicted <+: y.predicted)
    (first : x.predicted.head? = y.predicted.head?) (expected : x.expected = y.expected) :
    x.Widened y := by
  by_cases hit : x.expected ∈ x.predicted
  · have later : y.expected ∈ y.predicted := expected ▸ candidates.subset hit
    obtain ⟨one, entries⟩ := candidateHit hit
    obtain ⟨one', entries'⟩ := candidateHit later
    exact widenedAlike candidates expected (one.trans one'.symm)
      (by rw [entries, entries', expected])
  · obtain ⟨none, entries⟩ := candidateMiss hit
    by_cases later : y.expected ∈ y.predicted
    · obtain ⟨one, found⟩ := candidateHit later
      refine ⟨candidates, congrArg (fun e => [e]) expected, rfl, fun _ => one, fun _ zero => ?_,
        fun label => ?_, fun label o wrong => ?_⟩
      · rw [one] at zero
        contradiction
      · have absent : (label, Outcome.truePositive) ∉ x.confusions := by
          rw [entries]
          simp
        rw [List.count_eq_zero_of_not_mem absent]
        exact Nat.zero_le _
      · have absent : (label, o) ∉ y.confusions := by
          rw [found]
          simpa using fun _ => wrong
        rw [List.count_eq_zero_of_not_mem absent]
        exact Nat.zero_le _
    · obtain ⟨none', entries'⟩ := candidateMiss later
      exact widenedAlike candidates expected (none.trans none'.symm)
        (by rw [entries, entries', expected, first])

end Example

/-! ### Rows and batches -/

def TopKRow.Wider (catalogue k l : Nat) (x y : TopKRow) : Prop :=
  ∃ row : List Score, row.length = catalogue ∧ x.candidates = Ranking.topK k row ∧
    y.candidates = Ranking.topK l row

abbrev SameLabel (catalogue expected other : Nat) : Prop :=
  expected = other ∧ expected < catalogue

theorem widerDecodes {k l catalogue : Nat} {mode mode' : Bool} {batch : Batch} {d : Decoded .topK}
    (decoded : PassRules.decode ⟨.topK k, catalogue, mode⟩ batch = .ok d) :
    ∃ e, PassRules.decode ⟨.topK l, catalogue, mode'⟩ batch = .ok e ∧
      d.Pairs (TopKRow.Wider catalogue k l) (SameLabel catalogue) e := by
  have admitted : PassRules.Admits ⟨.topK l, catalogue, mode'⟩ d.predicted.length
      batch.predictions batch.targets batch.scores := (decodedReads decoded).1
  obtain ⟨e, alike, _⟩ := admittedDecodes admitted
  refine ⟨e, alike, ?_, ?_⟩
  · obtain ⟨m, present, wide, rows⟩ := candidatesRead decoded
    obtain ⟨m', again, _, rows'⟩ := candidatesRead alike
    obtain rfl := Option.some.inj (present.symm.trans again)
    refine (forallJoin rows rows').imp fun x y same => ?_
    obtain ⟨row, member, left, right⟩ := same
    exact ⟨row, (m.even row member).trans wide, left, right⟩
  · have source := decodedExact.mp decoded
    have same : d.expected = e.expected :=
      Except.ok.inj (source.expected.symm.trans (decodedExact.mp alike).expected)
    rw [← same]
    exact List.forall₂_same.mpr fun expected member =>
      ⟨rfl, expectedRowsBelow source.expected expected member expected List.mem_cons_self⟩

theorem assembledWidened {k l catalogue : Nat} (some : 1 ≤ k) (wider : k ≤ l) {p q : Pass .topK}
    (paired : p.Pairs (TopKRow.Wider catalogue k l) (SameLabel catalogue) q) (mode mode' : Bool) :
    List.Forall₂ (fun x y => x.Widened y ∧ (catalogue ≤ l → y.hits = 1)) (p.assembled mode)
      (q.assembled mode') := by
  refine assembledPaired ?_ paired mode mode'
  rintro row row' expected expected' scores scores' ⟨source, length, same, same'⟩ ⟨rfl, below⟩
  refine ⟨Example.widened ?_ ?_ rfl, fun enough => ?_⟩
  · change row.candidates <+: row'.candidates
    rw [same, same']
    exact Ranking.topKPrefix wider source
  · change row.candidates.head? = row'.candidates.head?
    rw [same, same', Ranking.topKFirst some, Ranking.topKFirst (some.trans wider)]
  · refine (Example.candidateHit ?_).1
    change expected ∈ row'.candidates
    rw [same']
    exact Ranking.topKAll (length ▸ enough) (length ▸ below)

/-! ### Whole reports -/

theorem sumBelow {α β : Type} {f : α → Nat} {g : β → Nat} {xs : List α} {ys : List β}
    (each : List.Forall₂ (fun x y => f x ≤ g y) xs ys) : (xs.map f).sum ≤ (ys.map g).sum := by
  refine List.Forall₂.sum_le_sum ?_
  rwa [List.forall₂_map_left_iff, List.forall₂_map_right_iff]

namespace Report

variable {t u : Task} {xs : List (Example t)} {ys : List (Example u)}
  (widened : List.Forall₂ Example.Widened xs ys)

include widened

theorem widenedFound (label : Nat) :
    (xs.flatMap (·.confusions)).count (label, .truePositive) ≤
      (ys.flatMap (·.confusions)).count (label, .truePositive) := by
  rw [List.count_flatMap, List.count_flatMap]
  exact sumBelow (widened.imp fun x y one => one.found label)

theorem widenedSpared (label : Nat) {o : Outcome} (wrong : o ≠ .truePositive) :
    (ys.flatMap (·.confusions)).count (label, o) ≤
      (xs.flatMap (·.confusions)).count (label, o) := by
  rw [List.count_flatMap, List.count_flatMap]
  exact sumBelow (widened.flip.imp fun y x one => one.spared label o wrong)

theorem widenedHits : total Example.hits xs ≤ total Example.hits ys := by
  rw [totalSum, totalSum]
  refine sumBelow (widened.imp fun x y one => ?_)
  have bound : x.hits ≤ x.opportunities := List.countP_le_length
  have single := one.single
  have kept := one.kept
  omega

theorem widenedOpportunities :
    total Example.opportunities xs = xs.length ∧ total Example.opportunities ys = xs.length := by
  rw [totalSum, totalSum]
  induction widened with
  | nil => exact ⟨rfl, rfl⟩
  | cons one _ ih =>
    have same : _ = _ := congrArg List.length one.expected
    have single := one.single
    simp only [List.map_cons, List.sum_cons, List.length_cons]
    simp only [Example.opportunities] at *
    omega

theorem widenedAccuracy (counted : xs.length < 2 ^ 64) :
    (Arithmetic.share (total Example.hits xs) (total Example.opportunities xs) : Float) ≤
      Arithmetic.share (total Example.hits ys) (total Example.opportunities ys) := by
  obtain ⟨opportunities, same⟩ := widenedOpportunities widened
  have bound : total Example.hits ys ≤ total Example.opportunities ys := by
    rw [totalSum, totalSum]
    exact List.sum_le_sum fun y _ => List.countP_le_length
  rw [opportunities, same]
  exact shareMonotone (widenedHits widened) ((bound.trans same.le).trans_lt counted) counted

end Report

structure HardScores.Widened {α : Type} (h g : HardScores α) (name : String) : Prop where
  truePositives : h.counted name (·.truePositives) ≤ g.counted name (·.truePositives)
  falsePositives : g.counted name (·.falsePositives) ≤ h.counted name (·.falsePositives)
  falseNegatives : g.counted name (·.falseNegatives) ≤ h.counted name (·.falseNegatives)

theorem hardWidened {t u : Task} {α : Type} [Arithmetic α] {labels : List String}
    (distinct : labels.Nodup) {xs : List (Example t)} {ys : List (Example u)}
    (below : ∀ x ∈ xs, ∀ label ∈ x.referenced, label < labels.length)
    (below' : ∀ y ∈ ys, ∀ label ∈ y.referenced, label < labels.length)
    (widened : List.Forall₂ Example.Widened xs ys) {name : String} (known : name ∈ labels) :
    ((Report.tally labels xs).scores true : HardScores α).Widened
      ((Report.tally labels ys).scores true) name := by
  obtain ⟨label, here⟩ := List.mem_iff_getElem?.mp known
  constructor
  · rw [Report.scoresCounted distinct below here _ .truePositive fun _ => rfl,
      Report.scoresCounted distinct below' here _ .truePositive fun _ => rfl]
    exact Report.widenedFound widened label
  · rw [Report.scoresCounted distinct below here _ .falsePositive fun _ => rfl,
      Report.scoresCounted distinct below' here _ .falsePositive fun _ => rfl]
    exact Report.widenedSpared widened label (by decide)
  · rw [Report.scoresCounted distinct below here _ .falseNegative fun _ => rfl,
      Report.scoresCounted distinct below' here _ .falseNegative fun _ => rfl]
    exact Report.widenedSpared widened label (by decide)

theorem candidatesWiden {k l : Nat} (some : 1 ≤ k) (wider : k ≤ l) {labels : List String}
    {config config' : Config} {few many : Reporter} {log log' : List LogLine}
    (made : Reporter.new (.topK k) labels config = .ok (few, log))
    (made' : Reporter.new (.topK l) labels config' = .ok (many, log')) (xs : List Arrival)
    (accepted : ∀ outcome ∈ few.outcomes xs, outcome = .ok ()) :
    (∀ outcome ∈ many.outcomes xs, outcome = .ok ()) ∧
    List.Forall₂ (fun x y => x.Widened y ∧ (labels.length ≤ l → y.hits = 1))
      ((few.feed xs).pass.assembled config.memoryEfficient)
      ((many.feed xs).pass.assembled config'.memoryEfficient) ∧
    (∀ fault, (few.feed xs).metrics = .error fault ↔ (many.feed xs).metrics = .error fault) ∧
    ∀ m notes n notes', (few.feed xs).metrics = .ok (m, notes) →
      (many.feed xs).metrics = .ok (n, notes') →
      ((few.feed xs).pass.examples < 2 ^ 64 → m.accuracy ≤ n.accuracy) ∧
      ∀ name ∈ labels, m.hard.Widened n.hard name := by
  have distinct := (Reporter.newChecked made).1
  have aligned := Reporter.fedAligned made xs
  have aligned' := Reporter.fedAligned made' xs
  obtain ⟨selection, rfl⟩ := Reporter.newFields made
  obtain ⟨selection', rfl⟩ := Reporter.newFields made'
  have along : List.Forall₂ (Alongside ⟨.topK k, labels.length, config.memoryEfficient⟩
      ⟨.topK l, labels.length, config'.memoryEfficient⟩ (TopKRow.Wider labels.length k l)
      (SameLabel labels.length)) xs xs :=
    List.forall₂_same.mpr fun a _ => ⟨fun d => widerDecodes, rfl, rfl⟩
  obtain ⟨taken, paired⟩ := runPaired along accepted
  have examples := assembledWidened some wider paired config.memoryEfficient config'.memoryEfficient
  have widened := examples.imp fun _ _ => And.left
  refine ⟨taken, examples, fun fault => ?_, ?_⟩
  · rw [Reporter.metricsFaulty aligned, Reporter.metricsFaulty aligned']
    exact iff_of_eq (congrArg (· = Option.some fault) (faultPaired paired))
  · intro m notes n notes' reported reported'
    obtain ⟨accuracy, hard, _⟩ := Report.computeParts (Reporter.metricsReport aligned reported)
    obtain ⟨accuracy', hard', _⟩ := Report.computeParts (Reporter.metricsReport aligned' reported')
    constructor
    · -- the counts are machine words, and only such are sure to have a finite double
      intro counted
      rw [accuracy, accuracy']
      exact Report.widenedAccuracy widened
        ((aligned.assembledLength config.memoryEfficient).trans_lt counted)
    · intro name known
      rw [hard, hard']
      exact hardWidened distinct aligned.assembledBelow aligned'.assembledBelow widened known

def wrongFirst : Arrival := scoredPair (labelPair 0 1) (labelPair 1 1)

theorem wrongFirstReported (k : Nat) :
    ∃ m notes, ((Reporter.yesNo (.topK k)).feed [wrongFirst]).metrics = .ok (m, notes) := by
  have aligned := Reporter.fedAligned (Reporter.yesNoMade (.topK k)) [wrongFirst]
  cases reported : ((Reporter.yesNo (.topK k)).feed [wrongFirst]).metrics with
  | ok made => exact ⟨made.1, made.2, rfl⟩
  | error fault =>
    have faulty := (Reporter.metricsFaulty aligned).mp reported
    contradiction

theorem wrongFirstWidened :
    ∃ (m n : Report Float) (notes notes' : List LogLine),
      ((Reporter.yesNo (.topK 1)).feed [wrongFirst]).metrics = .ok (m, notes) ∧
      ((Reporter.yesNo (.topK 2)).feed [wrongFirst]).metrics = .ok (n, notes') ∧
      m.accuracy ≤ n.accuracy ∧ m.hard.Widened n.hard "no" ∧
      List.Forall₂ (fun x y => x.Widened y ∧ y.hits = 1)
        (((Reporter.yesNo (.topK 1)).feed [wrongFirst]).pass.assembled false)
        (((Reporter.yesNo (.topK 2)).feed [wrongFirst]).pass.assembled false) := by
  obtain ⟨m, notes, reported⟩ := wrongFirstReported 1
  obtain ⟨n, notes', reported'⟩ := wrongFirstReported 2
  have accepted : ∀ outcome ∈ (Reporter.yesNo (.topK 1)).outcomes [wrongFirst],
      outcome = .ok () := List.forall_mem_singleton.mpr rfl
  obtain ⟨_, examples, _, reports⟩ := candidatesWiden (by decide : 1 ≤ 1) (by decide : 1 ≤ 2)
    (Reporter.yesNoMade (.topK 1)) (Reporter.yesNoMade (.topK 2)) [wrongFirst] accepted
  obtain ⟨accuracy, hard⟩ := reports m notes n notes' reported reported'
  refine ⟨m, n, notes, notes', reported, reported', accuracy ?_, hard "no" List.mem_cons_self, ?_⟩
  · exact (by decide : 2 < 2 ^ 64)
  · exact examples.imp fun x y both => ⟨both.1, both.2 (by decide)⟩

end EvalReport
