import EvalReport.Proofs.ReporterRun
import EvalReport.Proofs.Slices

/-! Cutting a batch along the example axis. Each decoder checks a shape that slices share and
then one row after the other, so a slice over two neighbours is accepted exactly when both are,
with their rows behind each other. By induction the same holds of any cut, empty slices
included, and context columns grow alike. -/
namespace EvalReport

/- Reading the slice over two neighbours is reading both, and putting the rows together. -/
def Splits {β : Type} (read : Nat → Nat → Except Fault (List β)) : Prop :=
  ∀ start a b rows, read start (a + b) = .ok rows ↔
    ∃ left right, read start a = .ok left ∧ read (start + a) b = .ok right ∧ rows = left ++ right

theorem collectSplits {α β : Type} (f : α → Except Fault β) (xs : List α) :
    Splits fun start count => collectOk f (window start count xs) := by
  intro start a b rows
  simp only [windowSplit]
  exact collectOkAppend

theorem labelVectorSplits (catalogue : Nat) (side : Side) (t : Tensor Int) :
    Splits fun start count => labelVector catalogue side (t.slice start count) := by
  intro start a b rows
  simp only [labelVector, vectorOf, Tensor.vectorSlice]
  cases t.vector? with
  | none => simp [bindOk]
  | some raws => exact collectSplits (labelOffset catalogue) raws start a b rows

theorem indicatorRowsSplits (catalogue : Nat) (t : Tensor Int) :
    Splits fun start count => indicatorRows catalogue (t.slice start count) := by
  intro start a b rows
  simp only [indicatorRowsExact, Tensor.matrixSlice]
  cases t.matrix? with
  | none => simp
  | some m =>
    have joined : (m.slice start (a + b)).rows =
        (m.slice start a).rows ++ (m.slice (start + a) b).rows := windowSplit start a b m.rows
    simp only [Option.map_some, Option.some.injEq, exists_eq_left', joined, List.map_append]
    constructor
    · intro facts
      obtain ⟨wide, rfl⟩ := facts
      exact ⟨_, _, ⟨wide, rfl⟩, ⟨wide, rfl⟩, rfl⟩
    · intro facts
      obtain ⟨_, _, ⟨wide, rfl⟩, ⟨_, rfl⟩, rfl⟩ := facts
      exact ⟨wide, rfl⟩

theorem paddedRowsSplits (catalogue : Nat) (t : Tensor Int) :
    Splits fun start count => Task.multiLabel.expectedRows catalogue (t.slice start count) := by
  intro start a b rows
  simp only [Task.expectedRows, matrixOf, Tensor.matrixSlice]
  cases t.matrix? with
  | none => simp [bindOk]
  | some m => exact collectSplits (paddedLabels catalogue) m.rows start a b rows

theorem topKRowsSplits (k catalogue : Nat) (t : Tensor Int) (m : Matrix Score)
    (even : ∀ raws, t.vector? = some raws → m.rows.length = raws.length) :
    Splits fun start count =>
      topKRows k catalogue (t.slice start count) (some (m.slice start count)) := by
  intro start a b rows
  simp only [topKRows, vectorOf, Tensor.vectorSlice]
  cases read : t.vector? with
  | none => simp [bindOk]
  | some raws =>
    have counted : ∀ start count,
        (m.slice start count).rows.length = (window start count raws).length := by
      intro start count
      simp only [Matrix.slice, windowLength, even raws read]
    have zipped : ∀ start count, (window start count raws).zip (m.slice start count).rows =
        window start count (raws.zip m.rows) := fun start count => windowZip start count raws m.rows
    simp only [Option.map_some, bindOk, Except.ok.injEq, exists_eq_left', counted, ne_eq,
      not_true_eq_false, if_false, zipped]
    by_cases wide : m.width = catalogue
    · simp only [Matrix.slice, wide, not_true_eq_false, if_false]
      exact collectSplits _ (raws.zip m.rows) start a b rows
    · simp [Matrix.slice, wide]

/-! ### Slices of a batch -/

def Batch.slice (start count : Nat) (b : Batch) : Batch :=
  { b with
    predictions := b.predictions.slice start count
    targets := b.targets.slice start count
    scores := b.scores.map (·.slice start count) }

structure Batch.Spans (b : Batch) (n : Nat) : Prop where
  predictions : ∀ m ∈ b.predictions.shape.head?, m = n
  targets : ∀ m ∈ b.targets.shape.head?, m = n
  scores : ∀ m ∈ b.scores, m.rows.length = n

def Decoded.append {t : Task} (d e : Decoded t) : Decoded t :=
  ⟨d.predicted ++ e.predicted, d.expected ++ e.expected, d.scores ++ e.scores⟩

theorem labelVectorCount {catalogue : Nat} {side : Side} {t : Tensor Int} {labels : List Nat}
    (ok : labelVector catalogue side t = .ok labels) : t.shape.head? = some labels.length := by
  obtain ⟨raws, read, rows⟩ := labelVectorExact.mp ok
  rw [Tensor.vectorAxis read, rows.length_eq]

theorem predictedRowsCount {kind : Kind} {catalogue : Nat} {t : Tensor Int}
    {scores : Option (Matrix Score)} {rows : List kind.task.Row}
    (ok : kind.predictedRows catalogue t scores = .ok rows) :
    t.shape.head? = some rows.length := by
  cases kind with
  | singleLabel => exact labelVectorCount ok
  | multiLabel =>
    obtain ⟨m, read, _, rfl⟩ := indicatorRowsExact.mp ok
    rw [Tensor.matrixAxis read, List.length_map]
  | topK k =>
    obtain ⟨m, raws, _, read, even, _, each⟩ := topKRowsExact.mp ok
    have count := each.length_eq
    rw [List.length_zip, even, Nat.min_self] at count
    rw [Tensor.vectorAxis read, count]

theorem expectedRowsCount {task : Task} {catalogue : Nat} {t : Tensor Int}
    {rows : List task.Expected} (ok : task.expectedRows catalogue t = .ok rows) :
    t.shape.head? = some rows.length := by
  cases task with
  | singleLabel => exact labelVectorCount ok
  | multiLabel =>
    simp only [Task.expectedRows, bindOk, matrixOfExact] at ok
    obtain ⟨m, read, each⟩ := ok
    rw [Tensor.matrixAxis read, collectOkLength each]
  | topK => exact labelVectorCount ok

namespace Batch.Spans

variable {b : Batch} {n : Nat} {rules : PassRules}

theorem predictedCounted (spans : b.Spans n) {start count : Nat}
    {rows : List rules.kind.task.Row}
    (ok : rules.kind.predictedRows rules.catalogue (b.slice start count).predictions
      (b.slice start count).scores = .ok rows) : rows.length = min count (n - start) := by
  have axis := predictedRowsCount ok
  rw [Batch.slice, Tensor.sliceAxis] at axis
  obtain ⟨m, first, same⟩ := Option.map_eq_some_iff.mp axis
  rw [← same, spans.predictions m first]

theorem expectedCounted (spans : b.Spans n) {start count : Nat}
    {rows : List rules.kind.task.Expected}
    (ok : rules.kind.task.expectedRows rules.catalogue (b.slice start count).targets = .ok rows) :
    rows.length = min count (n - start) := by
  have axis := expectedRowsCount ok
  rw [Batch.slice, Tensor.sliceAxis] at axis
  obtain ⟨m, first, same⟩ := Option.map_eq_some_iff.mp axis
  rw [← same, spans.targets m first]

theorem predictedSplits (spans : b.Spans n) : Splits fun start count =>
    rules.kind.predictedRows rules.catalogue (b.slice start count).predictions
      (b.slice start count).scores := by
  obtain ⟨kind, catalogue, memoryEfficient⟩ := rules
  cases kind with
  | singleLabel => exact labelVectorSplits catalogue .predictions b.predictions
  | multiLabel => exact indicatorRowsSplits catalogue b.predictions
  | topK k =>
    cases given : b.scores with
    | none =>
      intro start a c rows
      simp [Kind.predictedRows, topKRows, Batch.slice, given]
    | some m =>
      have even : ∀ raws, b.predictions.vector? = some raws → m.rows.length = raws.length := by
        intro raws read
        rw [spans.scores m given, spans.predictions _ (Tensor.vectorAxis read)]
      simp only [Kind.predictedRows, Batch.slice, given, Option.map_some]
      exact topKRowsSplits k catalogue b.predictions m even

theorem expectedSplits (b : Batch) : Splits fun start count =>
    rules.kind.task.expectedRows rules.catalogue (b.slice start count).targets := by
  obtain ⟨kind, catalogue, memoryEfficient⟩ := rules
  cases kind with
  | singleLabel => exact labelVectorSplits catalogue .targets b.targets
  | multiLabel => exact paddedRowsSplits catalogue b.targets
  | topK k => exact labelVectorSplits catalogue .targets b.targets

theorem keptSlice (spans : b.Spans n) {start count : Nat} {rows : List (List Score)} :
    rules.keptScores (min count (n - start)) (b.slice start count) = .ok rows ↔
      if rules.memoryEfficient then rows = []
      else ∃ m, b.scores = some m ∧ m.width = rules.catalogue ∧
        rows = window start count m.rows := by
  rw [keptScoresExact]
  have counted : ∀ m, (b.slice start count).scores = some m →
      m.rows.length = min count (n - start) := by
    intro m given
    obtain ⟨whole, present, rfl⟩ := Option.map_eq_some_iff.mp given
    simp only [Matrix.slice, windowLength, spans.scores whole present]
  cases rules.memoryEfficient with
  | true => simpa using fun _ => counted
  | false =>
    simp only [Bool.false_eq_true, if_false, Batch.slice, Option.map_eq_some_iff]
    constructor
    · intro facts
      obtain ⟨_, _, ⟨m, given, rfl⟩, wide, same⟩ := facts
      exact ⟨m, given, wide, same⟩
    · intro facts
      obtain ⟨m, given, wide, same⟩ := facts
      exact ⟨by simpa [Batch.slice] using counted, _, ⟨m, given, rfl⟩, wide, same⟩

theorem keptSplits (spans : b.Spans n) : Splits fun start count =>
    rules.keptScores (min count (n - start)) (b.slice start count) := by
  intro start a c rows
  simp only [spans.keptSlice]
  cases rules.memoryEfficient with
  | true => simp
  | false =>
    simp only [Bool.false_eq_true, if_false]
    constructor
    · intro facts
      obtain ⟨m, given, wide, rfl⟩ := facts
      exact ⟨_, _, ⟨m, given, wide, rfl⟩, ⟨m, given, wide, rfl⟩, windowSplit start a c m.rows⟩
    · intro facts
      obtain ⟨_, _, ⟨m, given, wide, rfl⟩, ⟨m', given', _, rfl⟩, rfl⟩ := facts
      obtain rfl : m = m' := Option.some.inj (given.symm.trans given')
      exact ⟨m, given, wide, (windowSplit start a c m.rows).symm⟩

theorem decodeSlice (spans : b.Spans n) {start count : Nat} {d : Decoded rules.kind.task} :
    rules.decode (b.slice start count) = .ok d ↔
      rules.kind.predictedRows rules.catalogue (b.slice start count).predictions
        (b.slice start count).scores = .ok d.predicted ∧
      rules.kind.task.expectedRows rules.catalogue (b.slice start count).targets =
        .ok d.expected ∧
      rules.keptScores (min count (n - start)) (b.slice start count) = .ok d.scores := by
  rw [decodedExact]
  constructor
  · intro facts
    obtain ⟨predicted, expected, _, kept⟩ := facts
    exact ⟨predicted, expected, spans.predictedCounted predicted ▸ kept⟩
  · intro facts
    obtain ⟨predicted, expected, kept⟩ := facts
    have rows := spans.predictedCounted predicted
    exact ⟨predicted, expected, (spans.expectedCounted expected).trans rows.symm, rows ▸ kept⟩

theorem decodeSplits (spans : b.Spans n) (start x y : Nat) (d : Decoded rules.kind.task) :
    rules.decode (b.slice start (x + y)) = .ok d ↔
      ∃ left right, rules.decode (b.slice start x) = .ok left ∧
        rules.decode (b.slice (start + x) y) = .ok right ∧ d = left.append right := by
  simp only [spans.decodeSlice]
  constructor
  · intro facts
    obtain ⟨predicted, expected, kept⟩ := facts
    obtain ⟨lp, rp, hlp, hrp, samePredicted⟩ := (spans.predictedSplits start x y _).mp predicted
    obtain ⟨le, re, hle, hre, sameExpected⟩ := (expectedSplits b start x y _).mp expected
    obtain ⟨ls, rs, hls, hrs, sameScores⟩ := (spans.keptSplits start x y _).mp kept
    refine ⟨⟨lp, le, ls⟩, ⟨rp, re, rs⟩, ⟨hlp, hle, hls⟩, ⟨hrp, hre, hrs⟩, ?_⟩
    rw [Decoded.append, ← samePredicted, ← sameExpected, ← sameScores]
  · intro facts
    obtain ⟨left, right, ⟨hlp, hle, hls⟩, ⟨hrp, hre, hrs⟩, rfl⟩ := facts
    exact ⟨(spans.predictedSplits start x y _).mpr ⟨_, _, hlp, hrp, rfl⟩,
      (expectedSplits b start x y _).mpr ⟨_, _, hle, hre, rfl⟩,
      (spans.keptSplits start x y _).mpr ⟨_, _, hls, hrs, rfl⟩⟩

end Batch.Spans

/-! ### Cuts -/

structure Piece where
  size : Nat
  index : Nat
  loss : Option Float
  input : ModelInput

namespace Arrival

def piece (a : Arrival) (start : Nat) (part : Piece) : Arrival where
  batch := { a.batch.slice start part.size with index := part.index, loss := part.loss }
  input := part.input
  context := a.context.map (·.slice start part.size)

def cut (a : Arrival) (start : Nat) : List Piece → List Arrival
  | [] => []
  | part :: rest => a.piece start part :: a.cut (start + part.size) rest

structure Spans (a : Arrival) (n : Nat) : Prop where
  batch : a.batch.Spans n
  sequences : ∀ key values, (key, .sequence values) ∈ a.context.entries → values.length = n
  tensors : ∀ key t, (key, .tensor t) ∈ a.context.entries → ∀ m ∈ t.shape.head?, m = n

end Arrival

def sizes : List Piece → Nat
  | [] => 0
  | part :: rest => part.size + sizes rest

namespace PassRules

variable {rules : PassRules}

theorem outcomesOk (p : Pass rules.kind.task) (xs : List Arrival) :
    (∀ o ∈ rules.outcomes p xs, o = .ok ()) ↔ ∀ x ∈ xs, ∃ d, rules.decode x.batch = .ok d := by
  induction xs generalizing p with
  | nil => simp [outcomes]
  | cons x xs ih => simp only [outcomes, List.forall_mem_cons, ih, receiveOk]

theorem decodeRelabelled (b : Batch) (index : Nat) (loss : Option Float)
    (d : Decoded rules.kind.task) :
    rules.decode { b with index := index, loss := loss } = .ok d ↔ rules.decode b = .ok d := by
  have keptAlike : rules.keptScores d.predicted.length { b with index := index, loss := loss } =
      .ok d.scores ↔ rules.keptScores d.predicted.length b = .ok d.scores := by
    rw [keptScoresExact, keptScoresExact]
  simp only [decodedExact]
  constructor
  · intro facts
    obtain ⟨predicted, expected, aligned, kept⟩ := facts
    exact ⟨predicted, expected, aligned, keptAlike.mp kept⟩
  · intro facts
    obtain ⟨predicted, expected, aligned, kept⟩ := facts
    exact ⟨predicted, expected, aligned, keptAlike.mpr kept⟩

theorem decodePiece (a : Arrival) (start : Nat) (part : Piece) (d : Decoded rules.kind.task) :
    rules.decode (a.piece start part).batch = .ok d ↔
      rules.decode (a.batch.slice start part.size) = .ok d :=
  decodeRelabelled (a.batch.slice start part.size) part.index part.loss d

theorem cutAccepted {a : Arrival} {n : Nat} (spans : a.batch.Spans n) (first : Piece)
    (rest : List Piece) (start : Nat) :
    (∃ d, rules.decode (a.batch.slice start (sizes (first :: rest))) = .ok d) ↔
      ∀ x ∈ a.cut start (first :: rest), ∃ d, rules.decode x.batch = .ok d := by
  induction rest generalizing first start with
  | nil =>
    have total : sizes [first] = first.size := rfl
    simp only [total, Arrival.cut, List.forall_mem_singleton, decodePiece]
  | cons second rest ih =>
    have total : sizes (first :: second :: rest) = first.size + sizes (second :: rest) := rfl
    rw [Arrival.cut, List.forall_mem_cons, ← ih second (start + first.size), total]
    simp only [decodePiece, spans.decodeSplits]
    constructor
    · intro facts
      obtain ⟨_, left, right, hl, hr, rfl⟩ := facts
      exact ⟨⟨left, hl⟩, right, hr⟩
    · intro facts
      obtain ⟨⟨left, hl⟩, right, hr⟩ := facts
      exact ⟨_, left, right, hl, hr, rfl⟩

end PassRules

theorem Batch.sliceWhole {b : Batch} {n : Nat} (spans : b.Spans n) : b.slice 0 n = b := by
  obtain ⟨index, predictions, targets, scores, loss⟩ := b
  have everyRow : scores.map (·.slice 0 n) = scores := by
    cases scores with
    | none => rfl
    | some m =>
      obtain rfl : m.rows.length = n := spans.scores m rfl
      simp [Matrix.slice, windowWhole]
  simp only [slice, Tensor.sliceWhole spans.predictions, Tensor.sliceWhole spans.targets, everyRow]

theorem Arrival.Spans.contextWhole {a : Arrival} {n : Nat} (spans : a.Spans n) :
    a.context.map (·.slice 0 n) = a.context := by
  apply Table.ext
  refine (List.map_congr_left ?_).trans (List.map_id _)
  rintro ⟨key, value⟩ member
  have whole : value.slice 0 n = value := by
    cases value with
    | tensor t => exact congrArg _ (Tensor.sliceWhole (spans.tensors key t member))
    | sequence values =>
      obtain rfl := spans.sequences key values member
      exact congrArg _ (windowWhole values)
    | scalar value => rfl
  exact congrArg (Prod.mk key) whole

/-! ### Passes over a cut -/

structure Pass.SameExamples {t : Task} (p q : Pass t) : Prop where
  predicted : p.predicted = q.predicted
  expected : p.expected = q.expected
  scores : p.scores = q.scores
  context : p.context = q.context

namespace Pass.SameExamples

variable {t : Task} {p q o : Pass t}

theorem trans (first : p.SameExamples q) (second : q.SameExamples o) : p.SameExamples o :=
  ⟨first.predicted.trans second.predicted, first.expected.trans second.expected,
    first.scores.trans second.scores, first.context.trans second.context⟩

theorem appended (same : p.SameExamples q) (d : Decoded t) (context : Table ContextValue)
    (size size' : Nat) (loss loss' : Option Float) :
    (p.append d size loss context).SameExamples (q.append d size' loss' context) where
  predicted := by simp only [append, same.predicted]
  expected := by simp only [append, same.expected]
  scores := by simp only [append, same.scores]
  context := by simp only [append, same.context]

theorem finish (same : p.SameExamples q) (memoryEfficient : Bool) :
    p.finish memoryEfficient = q.finish memoryEfficient := by
  cases p
  cases q
  obtain ⟨rfl, rfl, rfl, rfl⟩ := same
  rfl

end Pass.SameExamples

theorem extendContextSlices (context : Table (List Json)) (added : Table ContextValue)
    (start x y : Nat) :
    extendContext (extendContext context (added.map (·.slice start x)))
        (added.map (·.slice (start + x) y)) =
      extendContext context (added.map (·.slice start (x + y))) := by
  apply Table.eqOfFind
  intro key
  simp only [extendContextFind, Table.findMap]
  cases added.find? key with
  | none => rfl
  | some value =>
    simp only [Option.map_some, Option.bind_some, perExampleSlice]
    cases value.perExample with
    | none => rfl
    | some values => simp [windowSplit]

theorem appendedTwice {t : Task} (p : Pass t) (left right : Decoded t)
    (added : Table ContextValue) (start x y size size' : Nat) (loss loss' : Option Float) :
    (p.append (left.append right) size loss (added.map (·.slice start (x + y)))).SameExamples
      ((p.append left size' loss' (added.map (·.slice start x))).append right size loss
        (added.map (·.slice (start + x) y))) where
  predicted := by simp [Pass.append, Decoded.append]
  expected := by simp [Pass.append, Decoded.append]
  scores := by simp [Pass.append, Decoded.append]
  context := (extendContextSlices p.context added start x y).symm

theorem cutCollected {rules : PassRules} {a : Arrival} {n : Nat} (spans : a.batch.Spans n)
    (first : Piece) (rest : List Piece) (start : Nat) {d : Decoded rules.kind.task}
    (ok : rules.decode (a.batch.slice start (sizes (first :: rest))) = .ok d)
    {p q : Pass rules.kind.task} (same : p.SameExamples q) (size : Nat) (loss : Option Float) :
    (p.append d size loss (a.context.map (·.slice start (sizes (first :: rest))))).SameExamples
      (rules.run q ((a.cut start (first :: rest)).map .add)) := by
  induction rest generalizing first start d p q with
  | nil =>
    have total : sizes [first] = first.size := rfl
    rw [total] at ok ⊢
    have decoded := (PassRules.decodePiece a start first d).mpr ok
    change Pass.SameExamples _ (rules.receive q (a.piece start first)).pass
    rw [rules.receivePass q decoded]
    exact same.appended d _ _ _ _ _
  | cons second rest ih =>
    have total : sizes (first :: second :: rest) = first.size + sizes (second :: rest) := rfl
    rw [total] at ok ⊢
    obtain ⟨left, right, hl, hr, rfl⟩ := (spans.decodeSplits start _ _ d).mp ok
    have decoded := (PassRules.decodePiece a start first left).mpr hl
    change Pass.SameExamples _ (rules.run (rules.receive q (a.piece start first)).pass
      ((a.cut (start + first.size) (second :: rest)).map .add))
    rw [rules.receivePass q decoded]
    have next := same.appended left (a.context.map (·.slice start first.size)) size
      (first.input.batchSize.1.getD left.predicted.length) loss first.loss
    exact (appendedTwice p left right a.context start _ _ size size loss loss).trans
      (ih second (start + first.size) hr next)

theorem PassRules.cutAgrees (rules : PassRules) (p : Pass rules.kind.task) {whole : Arrival}
    {n : Nat} (spans : whole.Spans n) {parts : List Piece} (someParts : parts ≠ [])
    (total : sizes parts = n) :
    ((rules.receive p whole).result = .ok () ↔
      ∀ outcome ∈ rules.outcomes p (whole.cut 0 parts), outcome = .ok ()) ∧
    ((rules.receive p whole).result = .ok () →
      (rules.receive p whole).pass.SameExamples
        (rules.run p ((whole.cut 0 parts).map .add))) := by
  obtain ⟨first, rest, rfl⟩ := List.exists_cons_of_ne_nil someParts
  have everything : whole.batch.slice 0 (sizes (first :: rest)) = whole.batch := by
    rw [total]
    exact Batch.sliceWhole spans.batch
  constructor
  · rw [receiveOk, outcomesOk, ← cutAccepted spans.batch, everything]
  · intro ok
    obtain ⟨d, decoded⟩ := (rules.receiveOk p whole).mp ok
    have collected := cutCollected spans.batch first rest 0 (everything.symm ▸ decoded)
      (p := p) ⟨rfl, rfl, rfl, rfl⟩ (whole.input.batchSize.1.getD d.predicted.length)
      whole.batch.loss
    rw [total, spans.contextWhole] at collected
    rw [rules.receivePass p decoded]
    exact collected

/-! ### Reports over a cut -/

def Report.withoutLoss {α : Type} (r : Report α) : Report α := { r with loss := none }

theorem Report.computeWithoutLoss {t : Task} {α : Type} [Arithmetic α] (labels : List String)
    (xs : List (Example t)) (loss : Option α) (options : ReportOptions α) :
    (compute labels xs loss options).map (fun made => (made.1.withoutLoss, made.2)) =
      compute labels xs none options := by
  unfold compute
  cases strayLabel labels.length xs with
  | some label => rfl
  | none =>
    dsimp only
    split
    · cases scoreRows labels.length xs with
      | error fault => rfl
      | ok found =>
        cases found with
        | none => rfl
        | some rows =>
          simp only [withScores]
          split
          · rfl
          · rfl
    · rfl

namespace Reporter

def metricsWithoutLoss (r : Reporter) : Except Fault (Report Float × List LogLine) :=
  r.metrics.map fun made => (made.1.withoutLoss, made.2)

theorem metricsWithoutLossExact (r : Reporter) :
    r.metricsWithoutLoss =
      (r.pass.finish r.config.memoryEfficient >>= fun examples =>
        Report.compute r.labels examples none r.options) := by
  unfold metricsWithoutLoss metrics
  cases r.pass.finish r.config.memoryEfficient with
  | error fault => rfl
  | ok examples => exact Report.computeWithoutLoss r.labels examples r.pass.loss r.options

theorem reportsAlike {r : Reporter} {p q : Pass r.kind.task} (same : p.SameExamples q) :
    { r with pass := p }.predictions = { r with pass := q }.predictions ∧
    { r with pass := p }.targets = { r with pass := q }.targets ∧
    { r with pass := p }.metricsWithoutLoss = { r with pass := q }.metricsWithoutLoss := by
  refine ⟨?_, ?_, ?_⟩
  · simp only [predictions, Pass.predictions, same.predicted]
  · simp only [targets, Pass.targets, same.expected]
  · simp only [metricsWithoutLossExact, same.finish]
    rfl

end Reporter

theorem cutsAlike (r : Reporter) (whole : Arrival) (n : Nat) (spans : whole.Spans n)
    (parts : List Piece) (someParts : parts ≠ []) (total : sizes parts = n) :
    ((r.rules.receive r.pass whole).result = .ok () ↔
      ∀ outcome ∈ r.outcomes (whole.cut 0 parts), outcome = .ok ()) ∧
    ((r.rules.receive r.pass whole).result = .ok () →
      (r.feed [whole]).pass.SameExamples (r.feed (whole.cut 0 parts)).pass ∧
      (r.feed [whole]).predictions = (r.feed (whole.cut 0 parts)).predictions ∧
      (r.feed [whole]).targets = (r.feed (whole.cut 0 parts)).targets ∧
      (r.feed [whole]).metricsWithoutLoss = (r.feed (whole.cut 0 parts)).metricsWithoutLoss) := by
  obtain ⟨accepted, collected⟩ := r.rules.cutAgrees r.pass spans someParts total
  exact ⟨accepted, fun ok => ⟨collected ok, Reporter.reportsAlike (collected ok)⟩⟩

def indicatedThree : Arrival where
  batch := ⟨0, ⟨[3, 2], [1, 0, 1, 1, 0, 0], rfl⟩, ⟨[3, 1], [0, 1, -1], rfl⟩,
    some ⟨2, [[⟨1⟩, ⟨0⟩], [⟨0⟩, ⟨1⟩], [⟨1⟩, ⟨1⟩]], by decide⟩, none⟩
  input := .ready []
  context := ⟨[("id", .tensor ⟨[3], [1, 2, 3], rfl⟩), ("text", .sequence [.null, .null, .null]),
    ("unit", .scalar .null)], by decide⟩

theorem indicatedThreeSpans : indicatedThree.Spans 3 where
  batch := ⟨by decide, by decide, by simp [indicatedThree]⟩
  sequences := by simp [indicatedThree]
  tensors := by simp [indicatedThree]

def twoNoneOne : List Piece :=
  [⟨2, 0, none, .ready []⟩, ⟨0, 1, none, .ready []⟩, ⟨1, 2, some 1, .ready []⟩]

theorem indicatedThreeCut :
    ((Reporter.yesNo .multiLabel).outcomes (indicatedThree.cut 0 twoNoneOne)).length = 3 ∧
    (∀ outcome ∈ (Reporter.yesNo .multiLabel).outcomes (indicatedThree.cut 0 twoNoneOne),
      outcome = .ok ()) ∧
    ((Reporter.yesNo .multiLabel).feed [indicatedThree]).metricsWithoutLoss =
      ((Reporter.yesNo .multiLabel).feed (indicatedThree.cut 0 twoNoneOne)).metricsWithoutLoss := by
  obtain ⟨accepted, alike⟩ := cutsAlike (Reporter.yesNo .multiLabel) indicatedThree 3
    indicatedThreeSpans twoNoneOne (List.cons_ne_nil _ _) rfl
  exact ⟨rfl, accepted.mp rfl, (alike rfl).2.2.2⟩

end EvalReport
