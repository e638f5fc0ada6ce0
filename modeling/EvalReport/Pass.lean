import EvalReport.Batch
import EvalReport.Kind
import EvalReport.Report

/-! One evaluation pass: batches are checked in full, then appended. A rejected batch
leaves nothing behind; whether context lines up with the examples shows at the end. -/
namespace EvalReport

structure PassRules where
  kind : Kind
  catalogue : Nat
  memoryEfficient : Bool
  deriving DecidableEq, Repr

structure Decoded (t : Task) where
  predicted : List t.Row
  expected : List t.Expected
  scores : List (List Score)

structure Pass (t : Task) where
  predicted : List t.Row := []
  expected : List t.Expected := []
  scores : List (List Score) := []
  losses : List Float := []
  batchSizes : List Nat := []
  context : Table (List Json) := ∅
  batches : Nat := 0

namespace PassRules

def keptScores (rules : PassRules) (n : Nat) (batch : Batch) : Except Fault (List (List Score)) :=
  match batch.scores with
  | some scores =>
    if scores.rows.length ≠ n then
      .error (.dimensionMismatch (.scoreRows n scores.rows.length))
    else if rules.memoryEfficient then .ok []
    else if scores.width ≠ rules.catalogue then
      .error (.dimensionMismatch (.scoreWidth rules.catalogue scores.width))
    else .ok scores.rows
  | none =>
    if rules.memoryEfficient then .ok []
    else .error (.dataContract (.scoresRequired batch.index))

def decode (rules : PassRules) (batch : Batch) : Except Fault (Decoded rules.kind.task) := do
  let predicted ← rules.kind.predictedRows rules.catalogue batch.predictions batch.scores
  let expected ← rules.kind.task.expectedRows rules.catalogue batch.targets
  if expected.length ≠ predicted.length then
    .error (.dataContract (.targetCount batch.index predicted.length expected.length))
  else
    let scores ← rules.keptScores predicted.length batch
    .ok ⟨predicted, expected, scores⟩

end PassRules

def extendContext (context : Table (List Json)) (added : Table ContextValue) :
    Table (List Json) :=
  added.entries.foldl (fun context (key, value) =>
    match value.perExample with
    | none => context
    | some values => context.alter key fun old => old.getD [] ++ values) context

namespace Pass

variable {t : Task}

def examples (p : Pass t) : Nat := p.predicted.length

def append (p : Pass t) (d : Decoded t) (batchSize : Nat) (loss : Option Float)
    (context : Table ContextValue) : Pass t where
  predicted := p.predicted ++ d.predicted
  expected := p.expected ++ d.expected
  scores := p.scores ++ d.scores
  losses := p.losses ++ loss.toList
  batchSizes := p.batchSizes ++ [batchSize]
  context := extendContext p.context context
  batches := p.batches + 1

def loss (p : Pass t) : Option Float := Arithmetic.mean? p.losses

def strayColumn (p : Pass t) : Option (String × List Json) :=
  p.context.entries.find? fun column => column.2.length ≠ p.examples

def finish (p : Pass t) (memoryEfficient : Bool) : Except Fault (List (Example t)) :=
  if p.expected.length ≠ p.examples then
    .error (.internal (Decimal.natText p.examples ++ " predictions accumulated against " ++
      Decimal.natText p.expected.length ++ " targets"))
  else if !memoryEfficient && p.scores.length ≠ p.examples then
    .error (.dimensionMismatch (.scoreRows p.examples p.scores.length))
  else
    match p.strayColumn with
    | some (key, values) =>
      .error (.dimensionMismatch (.contextValues key p.examples values.length))
    | none =>
      .ok ((p.predicted.zip p.expected).zipIdx.map fun ((row, expected), i) =>
        t.assemble row expected (if memoryEfficient then none else p.scores[i]?))

def predictions (p : Pass t) (labels : List String) : Except Fault (List ReportedLabel) :=
  collectOk (t.reportPredicted labels) p.predicted

def targets (p : Pass t) (labels : List String) : Except Fault (List ReportedLabel) :=
  collectOk (t.reportExpected labels) p.expected

end Pass

/-- What became of a batch: the pass and the model input as they are left, the log, and
whether the batch was accepted. -/
structure Ingested (t : Task) where
  pass : Pass t
  input : ModelInput
  log : List LogLine
  result : Except Fault Unit

namespace PassRules

def sizeNote (index batchSize examples : Nat) : List LogLine :=
  if batchSize = examples then []
  else [⟨.debug, "batch " ++ Decimal.natText index ++ ": model input holds " ++
    Decimal.natText batchSize ++ " rows for " ++ Decimal.natText examples ++ " predictions"⟩]

def addedNote (rules : PassRules) (index added total : Nat) : LogLine :=
  ⟨.debug, rules.kind.name ++ " reporter: batch " ++ Decimal.natText index ++ " added " ++
    Decimal.natText added ++ " examples (" ++ Decimal.natText total ++ " total)"⟩

def ingest (rules : PassRules) (p : Pass rules.kind.task) (batch : Batch) (input : ModelInput)
    (context : Table ContextValue) : Ingested rules.kind.task :=
  match rules.decode batch with
  | .error fault => ⟨p, input, [], .error fault⟩
  | .ok decoded =>
    let (size, input) := input.batchSize
    let n := decoded.predicted.length
    let batchSize := size.getD n
    let next := p.append decoded batchSize batch.loss context
    ⟨next, input,
      sizeNote batch.index batchSize n ++ [rules.addedNote batch.index n next.examples], .ok ()⟩

end PassRules

end EvalReport
