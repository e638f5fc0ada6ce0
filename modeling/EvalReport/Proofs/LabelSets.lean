import EvalReport.Proofs.Batching
import EvalReport.Proofs.Conservation
import EvalReport.Proofs.OrderFree
import EvalReport.Proofs.PairedRuns
import Mathlib.Data.List.Count

/-! Labels in sets. A multi-label example has each predicted label once, and each expected label as
often as its padded row holds it: a repeated label is one more opportunity, and one more hit or
miss. Where no label is repeated, each label of either set has one entry. The order of a padded row
and the place of its padding make no difference. -/
namespace EvalReport

def entered (padded : List Int) : List Int := padded.filter (· ≠ noLabel)

def flagged (flags : List Int) (label : Nat) : Bool := flags[label]?.any (0 < ·)

namespace Example

structure Counts (flags padded : List Int) (x : Example .multiLabel) : Prop where
  hit : ∀ label, x.confusions.count (label, .truePositive) =
    if flagged flags label then (entered padded).count (label : Int) else 0
  missed : ∀ label, x.confusions.count (label, .falseNegative) =
    if flagged flags label then 0 else (entered padded).count (label : Int)
  wrong : ∀ label, x.confusions.count (label, .falsePositive) =
    if flagged flags label ∧ (label : Int) ∉ entered padded then 1 else 0
  spared : ∀ label, x.confusions.count (label, .trueNegative) = 0
  opportunities : x.opportunities = (entered padded).length
  hits : x.hits = (entered padded).countP fun raw => flagged flags raw.toNat

end Example

section Rows

variable {flags padded : List Int} {row expected : List Nat}

theorem marksFlagged (marks : Marks flags row) (label : Nat) :
    label ∈ row ↔ flagged flags label = true := by
  rw [marks.marked]
  cases here : flags[label]? with
  | none => simp [flagged, here]
  | some flag => simp [flagged, here]

theorem marksOnce (marks : Marks flags row) (label : Nat) :
    row.count label = if flagged flags label then 1 else 0 := by
  have distinct : row.Nodup := marks.ascending.imp Nat.ne_of_lt
  simp only [distinct.count, marksFlagged marks]

theorem unpadsEntered (unpads : Unpads padded expected) :
    entered padded = expected.map Int.ofNat := unpads.symm

theorem unpadsCount (unpads : Unpads padded expected) (label : Nat) :
    expected.count label = (entered padded).count (label : Int) := by
  rw [unpadsEntered unpads]
  exact (List.count_map_of_injective expected Int.ofNat (fun _ _ => Int.ofNat.inj) label).symm

theorem unpadsMember (unpads : Unpads padded expected) (label : Nat) :
    label ∈ expected ↔ (label : Int) ∈ entered padded := by
  rw [← List.count_pos_iff, ← List.count_pos_iff, unpadsCount unpads]

variable (marks : Marks flags row) (unpads : Unpads padded expected) (scores : Option (List Score))

include marks in
theorem predictsFlagged (label : Nat) :
    (Task.multiLabel.assemble row expected scores).predicts label = flagged flags label := by
  rw [Bool.eq_iff_iff, ← marksFlagged marks, Example.predicts, List.contains_iff_mem]
  rfl

include unpads in
theorem expectsEntered (label : Nat) :
    (Task.multiLabel.assemble row expected scores).expects label = true ↔
      (label : Int) ∈ entered padded := by
  rw [Example.expects, List.contains_iff_mem]
  exact unpadsMember unpads label

include marks unpads in
theorem chargedRows (label : Nat) :
    (Task.multiLabel.assemble row expected scores).charged.count label =
      if flagged flags label ∧ (label : Int) ∉ entered padded then 1 else 0 := by
  let x := Task.multiLabel.assemble row expected scores
  have unexpected : x.charged.count label =
      if x.expects label then 0 else x.predictedLabels.count label :=
    Report.unexpectedCount x label
  have once : x.predictedLabels.count label = if flagged flags label then 1 else 0 :=
    marksOnce marks label
  rw [unexpected, once]
  simp only [x, expectsEntered unpads]
  by_cases inside : (label : Int) ∈ entered padded
  · simp [inside]
  · simp [inside]

include marks unpads in
theorem rowsCounted : (Task.multiLabel.assemble row expected scores).Counts flags padded := by
  let x := Task.multiLabel.assemble row expected scores
  have predicts : ∀ label, x.predicts label = flagged flags label := predictsFlagged marks scores
  have named : ∀ label, x.expectedLabels.count label = (entered padded).count (label : Int) :=
    unpadsCount unpads
  exact {
    hit := fun label => by
      rw [Example.confusionCount, predicts, named]
      cases flagged flags label <;> simp
    missed := fun label => by
      rw [Example.confusionCount, predicts, named]
      cases flagged flags label <;> simp
    wrong := fun label => by rw [Example.chargedCounted, chargedRows marks unpads]
    spared := fun label => by
      rw [Example.confusionCount, predicts]
      cases flagged flags label <;> simp
    opportunities := by
      rw [unpadsEntered unpads, List.length_map]
      rfl
    hits := by
      have each : x.predicts = fun label => flagged flags label := funext predicts
      rw [Example.hits, each, unpadsEntered unpads, List.countP_map]
      rfl }

end Rows

/-! ### No label repeated -/

namespace Example

/- Each label of either set has one entry, and the counts are those of the sets. -/
structure CountsOnce (flags padded : List Int) (x : Example .multiLabel) : Prop where
  entries : ∀ label, x.confusions.countP (fun e => e.1 = label) =
    if flagged flags label ∨ (label : Int) ∈ entered padded then 1 else 0
  hit : ∀ label, (label, .truePositive) ∈ x.confusions ↔
    flagged flags label ∧ (label : Int) ∈ entered padded
  missed : ∀ label, (label, .falseNegative) ∈ x.confusions ↔
    ¬ flagged flags label ∧ (label : Int) ∈ entered padded
  wrong : ∀ label, (label, .falsePositive) ∈ x.confusions ↔
    flagged flags label ∧ (label : Int) ∉ entered padded
  opportunities : x.opportunities = (entered padded).toFinset.card
  hits : x.hits = ((entered padded).toFinset.filter fun raw => flagged flags raw.toNat).card

theorem entriesCount (es : List (Nat × Outcome)) (label : Nat) :
    es.countP (fun e => e.1 = label) = es.count (label, .truePositive) +
      es.count (label, .falseNegative) + es.count (label, .falsePositive) +
      es.count (label, .trueNegative) := by
  induction es with
  | nil => rfl
  | cons e es ih =>
    obtain ⟨other, o⟩ := e
    simp only [List.countP_cons, List.count_cons, ih]
    by_cases here : other = label
    · subst here
      cases o <;> simp <;> omega
    · simp [here]

theorem Counts.once {flags padded : List Int} {x : Example .multiLabel}
    (counts : x.Counts flags padded) (distinct : (entered padded).Nodup) :
    x.CountsOnce flags padded where
  entries label := by
    rw [entriesCount, counts.hit, counts.missed, counts.wrong, counts.spared, distinct.count]
    by_cases inside : (label : Int) ∈ entered padded
    · cases flagged flags label <;> simp [inside]
    · cases flagged flags label <;> simp [inside]
  hit label := by
    rw [← List.count_pos_iff, counts.hit, ← List.count_pos_iff]
    cases flagged flags label <;> simp
  missed label := by
    rw [← List.count_pos_iff, counts.missed, ← List.count_pos_iff]
    cases flagged flags label <;> simp
  wrong label := by
    rw [← List.count_pos_iff, counts.wrong]
    split
    · rename_i both
      simp [both]
    · rename_i neither
      simpa using neither
  opportunities := by rw [counts.opportunities, List.toFinset_card_of_nodup distinct]
  hits := by
    rw [counts.hits, List.countP_eq_length_filter, ← List.toFinset_filter,
      List.toFinset_card_of_nodup (distinct.filter _)]

end Example

/-! ### Rows in another order -/

structure Reordered (catalogue : Nat) (a b : Arrival) : Prop where
  loss : a.batch.loss = b.batch.loss
  scores : a.batch.scores = b.batch.scores
  context : a.context = b.context
  shape : a.batch.predictions.shape = b.batch.predictions.shape
  flags : ∀ i label, flagged (a.batch.predictions.line catalogue i) label =
    flagged (b.batch.predictions.line catalogue i) label
  targets : ∃ n width width', a.batch.targets.shape = [n, width] ∧
    b.batch.targets.shape = [n, width'] ∧ ∀ i < n, (entered (a.batch.targets.line width i)).Perm
      (entered (b.batch.targets.line width' i))

structure Example.Reordered (x y : Example .multiLabel) : Prop where
  scores : x.scores = y.scores
  predicted : x.predicted = y.predicted
  expected : List.Perm x.expected y.expected

namespace Example.Reordered

variable {x y : Example .multiLabel} (same : x.Reordered y)
include same

theorem expects (label : Nat) : x.expects label = y.expects label :=
  same.expected.contains_eq

theorem predicts : x.predicts = y.predicts := by
  funext label
  exact congrArg (fun row : List Nat => row.contains label) same.predicted

theorem charged : x.charged = y.charged := by
  change (x.predicted : List Nat).filter (fun label => !x.expects label) =
    (y.predicted : List Nat).filter fun label => !y.expects label
  simp only [same.predicted, same.expects]

theorem confusions : x.confusions.Perm y.confusions := by
  unfold Example.confusions
  rw [same.charged, same.predicts]
  exact (same.expected.map _).append_right _

theorem hits : x.hits = y.hits := by
  unfold Example.hits
  rw [same.predicts]
  exact same.expected.countP_eq _

theorem opportunities : x.opportunities = y.opportunities := same.expected.length_eq

theorem referenced : x.referenced.Perm y.referenced := by
  have predicted : x.predictedLabels = y.predictedLabels := same.predicted
  unfold Example.referenced
  rw [predicted]
  exact same.expected.append_left _

end Example.Reordered

namespace Report

variable {xs ys : List (Example .multiLabel)}
  (reordered : List.Forall₂ Example.Reordered xs ys)
include reordered

theorem flatMapReordered {β : Type} {f : Example .multiLabel → List β}
    (each : ∀ x y : Example .multiLabel, x.Reordered y → (f x).Perm (f y)) :
    (xs.flatMap f).Perm (ys.flatMap f) := by
  induction reordered with
  | nil => exact .refl _
  | cons one _ ih => exact (each _ _ one).append ih

theorem mapReordered {β : Type} {f : Example .multiLabel → β}
    (each : ∀ x y : Example .multiLabel, x.Reordered y → f x = f y) : xs.map f = ys.map f :=
  (forallMapped.mp (reordered.imp fun x y same => (each x y same).symm)).symm

theorem scoreRowsReordered (catalogue : Nat) : scoreRows catalogue xs = scoreRows catalogue ys := by
  induction reordered with
  | nil => rfl
  | cons one _ ih => rw [scoreRows, scoreRows, one.scores, ih]

theorem judgedReordered (rows : List (List Score)) (label : Nat) :
    judged xs rows label = judged ys rows label := by
  have expects := mapReordered reordered fun x y same => same.expects label
  have spread : ∀ zs : List (Example .multiLabel), judged zs rows label =
      (zs.map (·.expects label)).zipWith (fun b row => ⟨b, row.getD label ⟨0⟩⟩) rows := by
    intro zs
    rw [List.zipWith_map_left]
    rfl
  rw [spread, spread, expects]

theorem computeReordered {α : Type} [Arithmetic α] {labels : List String}
    (below : ∀ x ∈ xs, ∀ label ∈ x.referenced, label < labels.length) (loss : Option α)
    (options : ReportOptions α) :
    compute labels xs loss options = compute labels ys loss options := by
  have clear : strayLabel labels.length xs = none := strayLabelNone.mpr below
  have clearToo : strayLabel labels.length ys = none := by
    have referenced := flatMapReordered reordered fun x y same => same.referenced
    simp only [strayLabel, List.find?_eq_none] at clear ⊢
    exact fun label member => clear label (referenced.mem_iff.mpr member)
  have confusions : tally labels xs = tally labels ys :=
    tallyAlike labels (flatMapReordered reordered fun x y same => same.confusions)
  have hits := mapReordered reordered fun x y same => same.hits
  have opportunities := mapReordered reordered fun x y same => same.opportunities
  have hard : hardOnly labels xs loss options.keepLabels =
      hardOnly labels ys loss options.keepLabels := by
    simp only [hardOnly, totalSum, hits, opportunities, confusions]
  simp only [compute, clear, clearToo, hard, scoreRowsReordered reordered, withScores, softScores,
    judgedReordered reordered, confusions]

end Report

/-! ### Batches in another order -/

theorem lineOfData {t : Tensor Int} {n width : Nat} (shape : t.shape = [n, width]) {raw : Int} :
    raw ∈ t.data ↔ ∃ i < n, raw ∈ t.line width i := by
  obtain ⟨m, read, rfl, rfl⟩ := matrixTotal shape
  obtain ⟨_, whole, lines⟩ := matrixRead read
  rw [← whole, lines]
  simp

theorem marksAlike {flags other : List Int} {row again : List Nat} (marks : Marks flags row)
    (marksToo : Marks other again) (same : ∀ label, flagged flags label = flagged other label) :
    row = again := by
  have members : ∀ label, label ∈ row ↔ label ∈ again := by
    intro label
    rw [marksFlagged marks, marksFlagged marksToo, same]
  have perm : row.Perm again :=
    (List.perm_ext_iff_of_nodup (marks.ascending.imp Nat.ne_of_lt)
      (marksToo.ascending.imp Nat.ne_of_lt)).mpr members
  refine List.Perm.eq_of_pairwise ?_ marks.ascending marksToo.ascending perm
  intro a b _ _ below above
  exact absurd above (Nat.lt_asymm below)

theorem unpadsAlike {padded other : List Int} {expected again : List Nat}
    (unpads : Unpads padded expected) (unpadsToo : Unpads other again)
    (perm : (entered padded).Perm (entered other)) : expected.Perm again := by
  rw [unpadsEntered unpads, unpadsEntered unpadsToo] at perm
  exact (List.map_perm_map_iff fun _ _ => Int.ofNat.inj).mp perm

theorem keptAlike {rules : PassRules} {n : Nat} {batch other : Batch}
    (same : batch.scores = other.scores) {rows again : List (List Score)}
    (kept : rules.keptScores n batch = .ok rows)
    (keptToo : rules.keptScores n other = .ok again) : rows = again := by
  obtain ⟨_, first⟩ := keptScoresExact.mp kept
  obtain ⟨_, second⟩ := keptScoresExact.mp keptToo
  cases mode : rules.memoryEfficient with
  | true =>
    rw [if_pos mode] at first second
    exact first.trans second.symm
  | false =>
    rw [if_neg (by simp [mode])] at first second
    obtain ⟨m, present, _, rfl⟩ := first
    obtain ⟨m', presentToo, _, rfl⟩ := second
    cases (same.symm.trans present).symm.trans presentToo
    rfl

theorem forallRange {β : Type} {R : Nat → β → Prop} {n : Nat} {ys : List β}
    (each : List.Forall₂ R (List.range n) ys) {i : Nat} {y : β} (here : ys[i]? = some y) :
    R i y := by
  obtain ⟨inside, rfl⟩ := List.getElem?_eq_some_iff.mp here
  have bound : i < (List.range n).length := each.length_eq ▸ inside
  have there := each.get bound inside
  rwa [List.get_eq_getElem, List.getElem_range] at there

section Batches

variable {catalogue : Nat} {memoryEfficient : Bool} {a b : Arrival} {d : Decoded .multiLabel}

theorem reorderedEntries (same : Reordered catalogue a b)
    (entries : ∀ raw ∈ a.batch.targets.data, raw = noLabel ∨ IsLabel catalogue raw) :
    ∀ raw ∈ b.batch.targets.data, raw = noLabel ∨ IsLabel catalogue raw := by
  obtain ⟨n, width, width', shape, shapeToo, rows⟩ := same.targets
  intro raw member
  obtain ⟨i, below, inside⟩ := (lineOfData shapeToo).mp member
  by_cases padding : raw = noLabel
  · exact .inl padding
  · have there : raw ∈ entered (b.batch.targets.line width' i) :=
      List.mem_filter.mpr ⟨inside, decide_eq_true padding⟩
    have here := (List.mem_filter.mp ((rows i below).mem_iff.mpr there)).1
    exact entries raw ((lineOfData shape).mpr ⟨i, below, here⟩)

theorem reorderedDecodes (same : Reordered catalogue a b)
    (decoded : PassRules.decode ⟨.multiLabel, catalogue, memoryEfficient⟩ a.batch = .ok d) :
    ∃ e, PassRules.decode ⟨.multiLabel, catalogue, memoryEfficient⟩ b.batch = .ok e ∧
      d.Pairs Eq List.Perm e ∧ d.scores = e.scores := by
  obtain ⟨⟨predictions, _, entries, scored⟩, marked, width, targets, unpads⟩ :=
    decodedReads decoded
  have entriesToo := reorderedEntries same entries
  obtain ⟨n, _, width', shape, shapeToo, rows⟩ := same.targets
  obtain ⟨rfl, rfl⟩ : d.predicted.length = n ∧ width = _ := by
    simpa using targets.symm.trans shape
  have admitted : PassRules.Admits ⟨.multiLabel, catalogue, memoryEfficient⟩ d.predicted.length
      b.batch.predictions b.batch.targets b.batch.scores :=
    ⟨same.shape ▸ predictions, ⟨width', shapeToo⟩, entriesToo, same.scores ▸ scored⟩
  obtain ⟨e, decodedToo, counted⟩ := admittedDecodes admitted
  obtain ⟨_, markedToo, again, targetsToo, unpadsToo⟩ := decodedReads decodedToo
  rw [counted] at markedToo targetsToo unpadsToo
  obtain rfl : width' = again := by simpa using shapeToo.symm.trans targetsToo
  refine ⟨e, decodedToo, ⟨?_, ?_⟩, ?_⟩
  · refine (forallJoin marked markedToo).imp ?_
    rintro row other ⟨i, _, marks, marksToo⟩
    exact marksAlike marks marksToo (same.flags i)
  · refine (forallJoin unpads unpadsToo).imp ?_
    rintro expected other ⟨i, member, here, there⟩
    exact unpadsAlike here there (rows i (List.mem_range.mp member))
  · have kept := (decodedExact.mp decodedToo).kept
    rw [counted] at kept
    exact keptAlike same.scores (decodedExact.mp decoded).kept kept

theorem batchCounted
    (decoded : PassRules.decode ⟨.multiLabel, catalogue, memoryEfficient⟩ a.batch = .ok d) :
    ∃ width, a.batch.targets.shape = [d.predicted.length, width] ∧
      ∀ i row expected, d.predicted[i]? = some row → d.expected[i]? = some expected →
        ∀ scores, (Task.multiLabel.assemble row expected scores).Counts
          (a.batch.predictions.line catalogue i) (a.batch.targets.line width i) := by
  obtain ⟨_, marked, width, targets, unpads⟩ := decodedReads decoded
  refine ⟨width, targets, ?_⟩
  intro i row expected here there scores
  exact rowsCounted (forallRange marked here) (forallRange unpads there) scores

structure Pass.Reordered (p q : Pass .multiLabel) : Prop where
  rows : p.Pairs Eq List.Perm q
  scores : p.scores = q.scores

theorem receiveReordered {p q : Pass .multiLabel} (alike : p.Reordered q)
    (same : Reordered catalogue a b)
    (ok : (PassRules.receive ⟨.multiLabel, catalogue, memoryEfficient⟩ p a).result = .ok ()) :
    (PassRules.receive ⟨.multiLabel, catalogue, memoryEfficient⟩ q b).result = .ok () ∧
      (PassRules.receive ⟨.multiLabel, catalogue, memoryEfficient⟩ p a).pass.Reordered
        (PassRules.receive ⟨.multiLabel, catalogue, memoryEfficient⟩ q b).pass := by
  let rules : PassRules := ⟨.multiLabel, catalogue, memoryEfficient⟩
  obtain ⟨d, decoded⟩ := (rules.receiveOk p a).mp ok
  obtain ⟨e, decodedToo, rows, scores⟩ := reorderedDecodes same decoded
  refine ⟨(rules.receiveOk q b).mpr ⟨e, decodedToo⟩, ?_⟩
  have along : Alongside rules rules Eq List.Perm a b :=
    ⟨fun d decoded => (reorderedDecodes same decoded).imp fun _ facts => ⟨facts.1, facts.2.1⟩,
      same.loss, same.context⟩
  refine ⟨(receivePaired alike.rows along ok).2, ?_⟩
  rw [rules.receivePass p decoded, rules.receivePass q decodedToo]
  simp only [Pass.append, alike.scores, scores]

theorem assembledReordered {p q : Pass .multiLabel} (alike : p.Reordered q) (mode : Bool) :
    List.Forall₂ Example.Reordered (p.assembled mode) (q.assembled mode) := by
  refine assembledRelated (S := Eq) ?_ alike.rows fun i => by rw [alike.scores]
  intro row row' expected expected' scores scores' predicted reordered same
  exact ⟨same, predicted, reordered⟩

end Batches

theorem metricsReordered {config : Config} {labels : List String} {selection : Selection}
    {channels : List Channel} {p q : Pass .multiLabel} (alike : p.Reordered q)
    (aligned : Aligned ⟨.multiLabel, labels.length, config.memoryEfficient⟩ p)
    (alignedToo : Aligned ⟨.multiLabel, labels.length, config.memoryEfficient⟩ q) :
    Reporter.metrics ⟨config, labels, selection, .multiLabel, p, channels⟩ =
      Reporter.metrics ⟨config, labels, selection, .multiLabel, q, channels⟩ := by
  have loss : p.loss = q.loss := congrArg Arithmetic.mean? alike.rows.losses
  have finished : p.finish config.memoryEfficient = _ := aligned.finishExact
  have finishedToo : q.finish config.memoryEfficient = _ := alignedToo.finishExact
  rw [Reporter.metrics, Reporter.metrics, finished, finishedToo, faultPaired alike.rows]
  cases q.fault? with
  | some fault => rfl
  | none =>
    rw [loss]
    exact Report.computeReordered (assembledReordered alike config.memoryEfficient)
      aligned.assembledBelow q.loss _

theorem labelRowsCounted {labels : List String} {config : Config} {r : Reporter}
    {log : List LogLine} (made : Reporter.new .multiLabel labels config = .ok (r, log))
    (xs : List Arrival) (accepted : ∀ outcome ∈ r.outcomes xs, outcome = .ok ()) :
    (∀ a ∈ xs, ∃ d width,
      PassRules.decode ⟨.multiLabel, labels.length, config.memoryEfficient⟩ a.batch = .ok d ∧
      a.batch.targets.shape = [d.predicted.length, width] ∧
      ∀ i row expected, d.predicted[i]? = some row → d.expected[i]? = some expected →
        ∀ scores, (Task.multiLabel.assemble row expected scores).Counts
          (a.batch.predictions.line labels.length i) (a.batch.targets.line width i) ∧
        ((entered (a.batch.targets.line width i)).Nodup →
          (Task.multiLabel.assemble row expected scores).CountsOnce
            (a.batch.predictions.line labels.length i) (a.batch.targets.line width i))) ∧
    ∀ ys, List.Forall₂ (Reordered labels.length) xs ys →
      (∀ outcome ∈ r.outcomes ys, outcome = .ok ()) ∧
        (r.feed ys).metrics = (r.feed xs).metrics := by
  have aligned := Reporter.fedAligned made xs
  obtain ⟨selection, rfl⟩ := Reporter.newFields made
  constructor
  · intro a member
    obtain ⟨d, decoded⟩ := (PassRules.outcomesOk _ xs).mp accepted a member
    obtain ⟨width, shape, counted⟩ := batchCounted decoded
    refine ⟨d, width, decoded, shape, ?_⟩
    intro i row expected here there scores
    have counts := counted i row expected here there scores
    exact ⟨counts, counts.once⟩
  · intro ys reordered
    have alignedToo := Reporter.fedAligned made ys
    have fresh : Pass.Reordered {} {} := ⟨⟨.nil, .nil, rfl, rfl⟩, rfl⟩
    obtain ⟨taken, alike⟩ := PassRules.runSimulated
      ⟨.multiLabel, labels.length, config.memoryEfficient⟩
      ⟨.multiLabel, labels.length, config.memoryEfficient⟩ receiveReordered reordered fresh accepted
    exact ⟨taken, (metricsReordered alike aligned alignedToo).symm⟩

def firstFlagged (targets : Tensor Int) : Arrival where
  batch := ⟨0, ⟨[1, 2], [1, 0], rfl⟩, targets, some ⟨2, [[⟨1⟩, ⟨0⟩]], by decide⟩, none⟩
  input := .ready []
  context := ∅

theorem paddedTurned :
    ((Reporter.yesNo .multiLabel).feed [firstFlagged ⟨[1, 2], [0, 1], rfl⟩]).metrics =
      ((Reporter.yesNo .multiLabel).feed [firstFlagged ⟨[1, 3], [1, -1, 0], rfl⟩]).metrics ∧
    (⟨none, ([0] : List Nat), ([1, 0] : List Nat)⟩ : Example .multiLabel).CountsOnce
      [1, 0] [1, -1, 0] := by
  have accepted : ∀ outcome ∈ (Reporter.yesNo .multiLabel).outcomes
      [firstFlagged ⟨[1, 3], [1, -1, 0], rfl⟩], outcome = .ok () :=
    List.forall_mem_singleton.mpr rfl
  have reordered : Reordered 2 (firstFlagged ⟨[1, 3], [1, -1, 0], rfl⟩)
      (firstFlagged ⟨[1, 2], [0, 1], rfl⟩) :=
    ⟨rfl, rfl, rfl, rfl, fun _ _ => rfl, 1, 3, 2, rfl, rfl, by decide⟩
  obtain ⟨rows, reports⟩ := labelRowsCounted (Reporter.yesNoMade .multiLabel) _ accepted
  obtain ⟨d, width, decoded, shape, counted⟩ := rows _ List.mem_cons_self
  refine ⟨(reports _ (.cons reordered .nil)).2, ?_⟩
  cases Except.ok.inj decoded
  cases shape
  exact (counted 0 [0] [1, 0] rfl rfl none).2 (by decide)

def firstFlaggedBare (targets : Tensor Int) : Arrival where
  batch := ⟨0, ⟨[1, 2], [1, 0], rfl⟩, targets, none, none⟩
  input := .ready []
  context := ∅

/- The first label stands twice in the row: two entries for one label, and another accuracy than
that of the row which has it once. -/
theorem repeatedLabelTwice :
    (∃ d, PassRules.decode ⟨.multiLabel, 2, true⟩
        (firstFlaggedBare ⟨[1, 3], [0, 0, 1], rfl⟩).batch = .ok d ∧
      d.predicted = [([0] : List Nat)] ∧ d.expected = [([0, 0, 1] : List Nat)]) ∧
    (⟨none, ([0] : List Nat), ([0, 0, 1] : List Nat)⟩ : Example .multiLabel).confusions.countP
      (fun e => e.1 = 0) = 2 ∧
    (⟨none, ([0] : List Nat), ([0, 0, 1] : List Nat)⟩ : Example .multiLabel).hits = 2 ∧
    (⟨none, ([0] : List Nat), ([0, 0, 1] : List Nat)⟩ : Example .multiLabel).opportunities = 3 ∧
    ((Reporter.yesNo .multiLabel).efficient.feed
      [firstFlaggedBare ⟨[1, 3], [0, 0, 1], rfl⟩]).metrics.map (·.1.accuracy) = .ok (2 / 3) ∧
    ((Reporter.yesNo .multiLabel).efficient.feed
      [firstFlaggedBare ⟨[1, 3], [0, -1, 1], rfl⟩]).metrics.map (·.1.accuracy) = .ok (1 / 2) ∧
    (2 / 3 : Float) ≠ 1 / 2 := by
  have apart : (2 / 3 : Float) ≠ 1 / 2 := by decide +kernel
  exact ⟨⟨_, rfl, rfl, rfl⟩, by decide, rfl, rfl, rfl, rfl, apart⟩

end EvalReport
