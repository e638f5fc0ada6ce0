import EvalReport.Proofs.Batching
import EvalReport.Proofs.Candidates
import EvalReport.Proofs.PairedRuns

/-! One candidate. A top-k reporter that keeps a single candidate judges as a single-label reporter
that is given, for each example, the label of its best score: the same hits, the same charges, and
so the same report, soft scores aside. -/
namespace EvalReport

structure Recast (a b : Arrival) : Prop where
  targets : b.batch.targets = a.batch.targets
  scores : b.batch.scores = a.batch.scores
  loss : b.batch.loss = a.batch.loss
  context : b.context = a.context
  shape : b.batch.predictions.shape = a.batch.predictions.shape
  best : ∀ m, a.batch.scores = some m →
    ∃ labels, List.Forall₂ Best m.rows labels ∧ labels.map Int.ofNat = b.batch.predictions.data

/-! ### Examples -/

structure Example.Alike {t u : Task} (x : Example t) (y : Example u) : Prop where
  hits : x.hits = y.hits
  opportunities : x.opportunities = y.opportunities
  confusions : x.confusions = y.confusions

namespace Example

variable {x : Example .topK} {y : Example .singleLabel}

theorem singleHits (hit : y.predicted = y.expected) :
    y.hits = 1 ∧ y.confusions = [(y.expected, .truePositive)] := by
  obtain ⟨scores, predicted, expected⟩ := y
  obtain rfl : predicted = expected := hit
  change ([predicted] : List Nat).countP ([predicted] : List Nat).contains = 1 ∧
    [(predicted, if ([predicted] : List Nat).contains predicted then Outcome.truePositive
      else .falseNegative)] ++ (([predicted] : List Nat).filter
        fun label => !([predicted] : List Nat).contains label).map _ = _
  simp

theorem singleMisses (missed : y.predicted ≠ y.expected) :
    y.hits = 0 ∧ y.confusions = [(y.expected, .falseNegative), (y.predicted, .falsePositive)] := by
  obtain ⟨scores, predicted, expected⟩ := y
  have other : ¬ (expected : Nat) = predicted := Ne.symm missed
  have wrong : ¬ (predicted : Nat) = expected := missed
  change ([expected] : List Nat).countP ([predicted] : List Nat).contains = 0 ∧
    [(expected, if ([predicted] : List Nat).contains expected then Outcome.truePositive
      else .falseNegative)] ++ (([predicted] : List Nat).filter
        fun label => !([expected] : List Nat).contains label).map _ = _
  simp [other, wrong]

theorem soleAlike (sole : x.predicted = [y.predicted]) (expected : x.expected = y.expected) :
    x.Alike y := by
  by_cases hit : y.predicted = y.expected
  · obtain ⟨hits, confusions⟩ := singleHits hit
    have member : x.expected ∈ x.predicted := by
      rw [sole, expected]
      exact List.mem_singleton.mpr hit.symm
    obtain ⟨hits', confusions'⟩ := candidateHit member
    exact ⟨hits'.trans hits.symm, rfl, by rw [confusions, confusions', expected]⟩
  · obtain ⟨hits, confusions⟩ := singleMisses hit
    have absent : x.expected ∉ x.predicted := by
      rw [sole, expected]
      exact fun member => hit (List.mem_singleton.mp member).symm
    obtain ⟨hits', confusions'⟩ := candidateMiss absent
    refine ⟨hits'.trans hits.symm, rfl, ?_⟩
    rw [confusions, confusions', expected, sole]
    rfl

end Example

theorem Report.hardOnlyAlike {t u : Task} {xs : List (Example t)} {ys : List (Example u)}
    (alike : List.Forall₂ Example.Alike xs ys) {α : Type} [Arithmetic α] (labels : List String)
    (loss : Option α) (keepLabels : Bool) :
    hardOnly labels xs loss keepLabels = hardOnly labels ys loss keepLabels := by
  have hits : xs.map Example.hits = ys.map Example.hits :=
    (forallMapped.mp (alike.imp fun _ _ one => one.hits.symm)).symm
  have opportunities : xs.map Example.opportunities = ys.map Example.opportunities :=
    (forallMapped.mp (alike.imp fun _ _ one => one.opportunities.symm)).symm
  have confusions : xs.map Example.confusions = ys.map Example.confusions :=
    (forallMapped.mp (alike.imp fun _ _ one => one.confusions.symm)).symm
  simp only [hardOnly, tally, totalSum, List.flatMap_def, hits, opportunities, confusions]

/-! ### Batches -/

def SoleCandidate (x : Task.topK.Row) (label : Task.singleLabel.Row) : Prop :=
  x.candidates = [label]

def SameTarget (x : Task.topK.Expected) (y : Task.singleLabel.Expected) : Prop := (x : Nat) = y

theorem forallChoose {α β : Type} {R : α → β → Prop} {xs : List α} (each : ∀ x ∈ xs, ∃ y, R x y) :
    ∃ ys, List.Forall₂ R xs ys := by
  induction xs with
  | nil => exact ⟨[], .nil⟩
  | cons x xs ih =>
    obtain ⟨⟨y, here⟩, later⟩ := List.forall_mem_cons.mp each
    obtain ⟨ys, rest⟩ := ih later
    exact ⟨y :: ys, .cons here rest⟩

section Recast

variable {catalogue : Nat} {mode mode' : Bool} {a b : Arrival} {d : Decoded .topK}
  (decoded : PassRules.decode ⟨.topK 1, catalogue, mode⟩ a.batch = .ok d)

include decoded

theorem recastExists (nonempty : 0 < catalogue) : ∃ b, Recast a b := by
  obtain ⟨m, present, wide, rows⟩ := candidatesRead decoded
  obtain ⟨⟨shape, _⟩, _, m', again, even, _⟩ := (decodedReads decoded).1
  obtain rfl := Option.some.inj (present.symm.trans again)
  have best : ∀ row ∈ m.rows, ∃ label, Best row label := by
    intro row member
    refine Ranking.bestExists (List.length_pos_iff.mp ?_)
    rw [m.even row member, wide]
    exact nonempty
  obtain ⟨labels, each⟩ := forallChoose best
  have full : (labels.map Int.ofNat).length = volume a.batch.predictions.shape := by
    rw [List.length_map, ← each.length_eq, even, shape]
    simp [volume]
  refine ⟨{ a with batch := { a.batch with predictions := ⟨_, labels.map Int.ofNat, full⟩ } },
    rfl, rfl, rfl, rfl, rfl, fun m' again => ?_⟩
  obtain rfl := Option.some.inj (present.symm.trans again)
  exact ⟨labels, each, rfl⟩

theorem recastDecodes (recast : Recast a b) :
    ∃ e, PassRules.decode ⟨.singleLabel, catalogue, mode'⟩ b.batch = .ok e ∧
      d.Pairs SoleCandidate SameTarget e := by
  obtain ⟨m, present, wide, rows⟩ := candidatesRead decoded
  obtain ⟨⟨shape, _⟩, targets, m', again, even, _⟩ := (decodedReads decoded).1
  obtain rfl := Option.some.inj (present.symm.trans again)
  obtain ⟨labels, best, data⟩ := recast.best m present
  have below : ∀ raw ∈ b.batch.predictions.data, IsLabel catalogue raw := by
    intro raw member
    rw [← data] at member
    obtain ⟨label, inside, rfl⟩ := List.mem_map.mp member
    obtain ⟨i, bound, rfl⟩ := List.mem_iff_getElem.mp inside
    have first := Ranking.bestBelow (best.get (best.length_eq ▸ bound) bound)
    rw [m.even _ (List.get_mem _ _), wide] at first
    exact ⟨Int.natCast_nonneg _, Int.ofNat_lt.mpr first⟩
  have admitted : PassRules.Admits ⟨.singleLabel, catalogue, mode'⟩ d.predicted.length
      b.batch.predictions b.batch.targets b.batch.scores :=
    ⟨⟨recast.shape.trans shape, below⟩, recast.targets ▸ targets,
      .inl ⟨m, recast.scores.trans present, even, fun _ => wide⟩⟩
  obtain ⟨e, alike, _⟩ := admittedDecodes admitted
  refine ⟨e, alike, ?_, ?_⟩
  · obtain ⟨read, _⟩ := (decodedReads alike).2
    have same : labels = e.predicted :=
      List.map_injective_iff.mpr (fun _ _ => Int.ofNat.inj) (data.trans read.symm)
    refine (forallJoin rows (same ▸ best)).imp fun x label both => ?_
    obtain ⟨row, _, candidates, first⟩ := both
    exact candidates.trans (Ranking.bestFirst.mpr first)
  · have source := (decodedExact.mp decoded).expected
    have source' := (decodedExact.mp alike).expected
    rw [recast.targets] at source'
    have same : d.expected = e.expected := Except.ok.inj (source.symm.trans source')
    rw [← same]
    exact List.forall₂_same.mpr fun _ _ => rfl

end Recast

theorem plainAlike {p : Pass .topK} {q : Pass .singleLabel}
    (paired : p.Pairs SoleCandidate SameTarget q) (labels : List String) (mode mode' : Bool) :
    p.plainReport labels mode = q.plainReport labels mode' := by
  have alike : List.Forall₂ Example.Alike (p.assembled mode) (q.assembled mode') := by
    refine assembledPaired ?_ paired mode mode'
    intro row label expected expected' _ _ sole same
    exact Example.soleAlike sole same
  have loss : p.loss = q.loss := congrArg Arithmetic.mean? paired.losses
  rw [Pass.plainReport, Pass.plainReport, faultPaired paired, Report.hardOnlyAlike alike, loss]

theorem topOneSingle {labels : List String} {config : Config} {ranked : Reporter}
    {log : List LogLine} (made : Reporter.new (.topK 1) labels config = .ok (ranked, log))
    (xs : List Arrival) (accepted : ∀ outcome ∈ ranked.outcomes xs, outcome = .ok ()) :
    (∃ single notes, Reporter.new .singleLabel labels config = .ok (single, notes)) ∧
    (∃ ys, List.Forall₂ Recast xs ys) ∧
    ∀ config' single notes, Reporter.new .singleLabel labels config' = .ok (single, notes) →
      ∀ ys, List.Forall₂ Recast xs ys →
        (∀ outcome ∈ single.outcomes ys, outcome = .ok ()) ∧
        (single.feed ys).metrics.map (fun made => made.1.withoutScores) =
          (ranked.feed xs).metrics.map (fun made => made.1.withoutScores) := by
  obtain ⟨nonempty, possible⟩ := Reporter.newOther made .singleLabel
  have aligned := Reporter.fedAligned made xs
  obtain ⟨selection, rfl⟩ := Reporter.newFields made
  refine ⟨possible, ?_, ?_⟩
  · have each := (PassRules.outcomesOk _ xs).mp accepted
    refine forallChoose fun a member => ?_
    obtain ⟨d, decoded⟩ := each a member
    exact recastExists decoded (List.length_pos_iff.mpr nonempty)
  · intro config' single notes made' ys recast
    have aligned' := Reporter.fedAligned made' ys
    obtain ⟨selection', rfl⟩ := Reporter.newFields made'
    have along : List.Forall₂ (Alongside ⟨.topK 1, labels.length, config.memoryEfficient⟩
        ⟨.singleLabel, labels.length, config'.memoryEfficient⟩ SoleCandidate SameTarget) xs ys :=
      recast.imp fun a b one =>
        ⟨fun d decoded => recastDecodes decoded one, one.loss.symm, one.context.symm⟩
    obtain ⟨taken, paired⟩ := runPaired along accepted
    have alike := plainAlike paired labels config.memoryEfficient config'.memoryEfficient
    exact ⟨taken, (Reporter.plainMetrics aligned').trans
      (alike.symm.trans (Reporter.plainMetrics aligned).symm)⟩

/- A tie, which goes to the lower label, and a NaN, which stands above all numbers. -/
def tiedPair (predictions : Tensor Int) : Arrival where
  batch := ⟨0, predictions, labelPair 0 0,
    some ⟨2, [[⟨1⟩, ⟨1⟩], [⟨0⟩, ⟨0x7fc00000⟩]], by decide⟩, some 0.5⟩
  input := .ready []
  context := ∅

theorem tiedPairBest : Best [⟨1⟩, ⟨1⟩] 0 ∧ Best [⟨0⟩, ⟨0x7fc00000⟩] 1 := by
  decide

theorem tiedPairSingle :
    (∀ outcome ∈ (Reporter.yesNo .singleLabel).outcomes [tiedPair (labelPair 0 1)],
      outcome = .ok ()) ∧
    ((Reporter.yesNo .singleLabel).feed [tiedPair (labelPair 0 1)]).metrics.map
        (fun made => made.1.withoutScores) =
      ((Reporter.yesNo (.topK 1)).feed [tiedPair (labelPair 1 0)]).metrics.map
        (fun made => made.1.withoutScores) := by
  have accepted : ∀ outcome ∈ (Reporter.yesNo (.topK 1)).outcomes [tiedPair (labelPair 1 0)],
      outcome = .ok () := List.forall_mem_singleton.mpr rfl
  have recast : Recast (tiedPair (labelPair 1 0)) (tiedPair (labelPair 0 1)) := by
    refine ⟨rfl, rfl, rfl, rfl, rfl, fun m present => ?_⟩
    cases Option.some.inj present
    exact ⟨[0, 1], .cons tiedPairBest.1 (.cons tiedPairBest.2 .nil), rfl⟩
  obtain ⟨_, _, alike⟩ := topOneSingle (Reporter.yesNoMade (.topK 1)) _ accepted
  exact alike _ _ _ (Reporter.yesNoMade .singleLabel) _ (.cons recast .nil)

end EvalReport
