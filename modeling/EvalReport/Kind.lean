import EvalReport.Example
import EvalReport.Ranking
import EvalReport.Tensor

/-! Reporter kinds: how the tensors of a batch become rows, one for each example, and what
becomes of the rows. -/
namespace EvalReport

/-- A top-k prediction: the label the model settled on, and the best candidates by score. -/
structure TopKRow where
  argmax : Nat
  candidates : List Nat
  deriving DecidableEq, Repr

abbrev Task.Row : Task → Type
  | .singleLabel => Nat
  | .multiLabel => List Nat
  | .topK => TopKRow

inductive Kind where
  | singleLabel
  | multiLabel
  | topK (k : Nat)
  deriving DecidableEq, Repr

def defaultTopK : Nat := 3

def labelOffset (catalogue : Nat) (raw : Int) : Except Fault Nat :=
  if 0 ≤ raw ∧ raw < catalogue then .ok raw.toNat
  else .error (.indexOutOfBounds raw catalogue)

def collectOk {α β : Type} (f : α → Except Fault β) : List α → Except Fault (List β)
  | [] => .ok []
  | x :: xs => do
    let head ← f x
    let tail ← collectOk f xs
    .ok (head :: tail)

def vectorOf (side : Side) (t : Tensor Int) : Except Fault (List Int) :=
  match t.vector? with
  | some xs => .ok xs
  | none => .error (.dimensionMismatch (.rank side 1 t.rank))

def matrixOf (side : Side) (t : Tensor Int) : Except Fault (Matrix Int) :=
  match t.matrix? with
  | some m => .ok m
  | none => .error (.dimensionMismatch (.rank side 2 t.rank))

def labelVector (catalogue : Nat) (side : Side) (t : Tensor Int) : Except Fault (List Nat) := do
  collectOk (labelOffset catalogue) (← vectorOf side t)

def paddedLabels (catalogue : Nat) (row : List Int) : Except Fault (List Nat) := do
  let labels ← unpadded catalogue row
  match labels.find? fun label => catalogue ≤ label with
  | some label => .error (.labelOutOfBounds label catalogue)
  | none => .ok labels

def indicatorRows (catalogue : Nat) (t : Tensor Int) : Except Fault (List (List Nat)) := do
  let m ← matrixOf .predictions t
  if m.width = catalogue then .ok (m.rows.map indicated)
  else .error (.dimensionMismatch (.indicatorColumns catalogue m.width))

def topKRows (k catalogue : Nat) (predictions : Tensor Int) (scores : Option (Matrix Score)) :
    Except Fault (List TopKRow) := do
  match scores with
  | none => .error (.dataContract .matrixRequired)
  | some scores => do
    let raws ← vectorOf .predictions predictions
    if scores.rows.length ≠ raws.length then
      .error (.dimensionMismatch (.scoreRows raws.length scores.rows.length))
    else if scores.width ≠ catalogue then
      .error (.dimensionMismatch (.scoreWidth catalogue scores.width))
    else
      collectOk (fun (raw, row) => do
        .ok ⟨← labelOffset catalogue raw, Ranking.topK k row⟩) (raws.zip scores.rows)

namespace Kind

abbrev task : Kind → Task
  | singleLabel => .singleLabel
  | multiLabel => .multiLabel
  | topK _ => .topK

def name : Kind → String
  | singleLabel => "single_label"
  | multiLabel => "multi_label"
  | topK _ => "topk"

def requiresScores : Kind → Bool
  | topK _ => true
  | _ => false

def predictedRows (kind : Kind) (catalogue : Nat) (predictions : Tensor Int)
    (scores : Option (Matrix Score)) : Except Fault (List kind.task.Row) :=
  match kind with
  | singleLabel => labelVector catalogue .predictions predictions
  | multiLabel => indicatorRows catalogue predictions
  | topK k => topKRows k catalogue predictions scores

end Kind

namespace Task

def expectedRows (task : Task) (catalogue : Nat) (targets : Tensor Int) :
    Except Fault (List task.Expected) :=
  match task with
  | singleLabel => labelVector catalogue .targets targets
  | multiLabel => do collectOk (paddedLabels catalogue) (← matrixOf .targets targets).rows
  | topK => labelVector catalogue .targets targets

def assemble (task : Task) (row : task.Row) (expected : task.Expected)
    (scores : Option (List Score)) : Example task :=
  match task with
  | singleLabel => ⟨scores, row, expected⟩
  | multiLabel => ⟨scores, row, expected⟩
  | topK => ⟨scores, row.candidates, expected⟩

def labelName (labels : List String) (label : Nat) : Except Fault String :=
  match labels[label]? with
  | some name => .ok name
  | none => .error (.labelOutOfBounds label labels.length)

def reportOne (labels : List String) (label : Nat) : Except Fault ReportedLabel :=
  (labelName labels label).map .one

def reportSeveral (labels : List String) (offsets : List Nat) : Except Fault ReportedLabel :=
  (collectOk (labelName labels) offsets).map .several

def reportPredicted (task : Task) (labels : List String) (row : task.Row) :
    Except Fault ReportedLabel :=
  match task with
  | singleLabel => reportOne labels row
  | multiLabel => reportSeveral labels row
  | topK => reportOne labels row.argmax

def reportExpected (task : Task) (labels : List String) (expected : task.Expected) :
    Except Fault ReportedLabel :=
  match task with
  | singleLabel => reportOne labels expected
  | multiLabel => reportSeveral labels expected
  | topK => reportOne labels expected

end Task

end EvalReport
