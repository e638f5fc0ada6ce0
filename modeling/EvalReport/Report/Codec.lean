import EvalReport.Document
import EvalReport.Kind
import EvalReport.Report
import EvalReport.Selection

/-! Reports and predictions as JSON, field by field in a fixed order, and back. -/
namespace EvalReport

open Document

/-- The fields of a record that may also come as a list. A field missing from a record has
the value of `null` where that has one; a list has to give them all. -/
def record? (names : List String) : Reader (List Document) := fun d => do
  let (byPosition, fields) ← (Fields.mk true names).read d
  if byPosition then collect id fields else some (fields.map fun f => f.getD .null)

namespace LabelScores

def toJson (s : LabelScores Float) : Json := .object [
  ("true_positives", .count s.truePositives),
  ("false_positives", .count s.falsePositives),
  ("false_negatives", .count s.falseNegatives),
  ("precision", .real s.precision),
  ("recall", .real s.recallRate),
  ("f1", .real s.f1)]

def read : Reader (LabelScores Float) := fun d => do
  match ← record? ["true_positives", "false_positives", "false_negatives", "precision", "recall",
    "f1"] d with
  | [tp, fp, fn, precision, recallRate, f1] =>
    some ⟨← count? tp, ← count? fp, ← count? fn, ← real? precision, ← real? recallRate, ← real? f1⟩
  | _ => none

end LabelScores

namespace MacroScores

def toJson (s : MacroScores Float) : Json := .object [
  ("num_labels", .count s.labels),
  ("precision", .real s.precision),
  ("recall", .real s.recallRate),
  ("f1", .real s.f1)]

def read : Reader (MacroScores Float) := fun d => do
  match ← record? ["num_labels", "precision", "recall", "f1"] d with
  | [labels, precision, recallRate, f1] =>
    some ⟨← count? labels, ← real? precision, ← real? recallRate, ← real? f1⟩
  | _ => none

end MacroScores

def tableJson {β : Type} (encode : β → Json) (t : Table β) : Json :=
  .object (t.entries.map fun e => (e.1, encode e.2))

namespace HardScores

def toJson (s : HardScores Float) : Json := .object [
  ("per_label_scores", tableJson LabelScores.toJson s.perLabel),
  ("macro_scores", s.overall.toJson)]

def read : Reader (HardScores Float) := fun d => do
  match ← record? ["per_label_scores", "macro_scores"] d with
  | [perLabel, overall] => some ⟨← table? LabelScores.read perLabel, ← MacroScores.read overall⟩
  | _ => none

end HardScores

namespace Ranking.OperatingPoint

def toJson (p : OperatingPoint Float) : Json := .object [
  ("precision_threshold", .real p.threshold),
  ("recall", .real p.recallRate),
  ("decision_threshold", .real p.cutOff)]

def read : Reader (OperatingPoint Float) := fun d => do
  match ← record? ["precision_threshold", "recall", "decision_threshold"] d with
  | [threshold, recallRate, cutOff] => some ⟨← real? threshold, ← real? recallRate, ← real? cutOff⟩
  | _ => none

end Ranking.OperatingPoint

namespace SoftScores

def toJson (s : SoftScores Float) : Json := .object [
  ("average_precision", .real s.averagePrecision),
  ("recall_at_precision", .array (s.recallAtPrecision.map (·.toJson))),
  ("roc_auc", Json.optional .real s.rocAuc)]

def read : Reader (SoftScores Float) := fun d => do
  match ← record? ["average_precision", "recall_at_precision", "roc_auc"] d with
  | [average, points, auc] =>
    some ⟨← real? average, ← list? Ranking.OperatingPoint.read points, ← optional? real? auc⟩
  | _ => none

end SoftScores

namespace Report

def toJson (r : Report Float) : Json := .object [
  ("accuracy", .real r.accuracy),
  ("macro_prf1_metrics", r.hard.toJson),
  ("per_label_soft_scores", Json.optional (tableJson SoftScores.toJson) r.soft),
  ("mcc", Json.optional .real r.mcc),
  ("roc_auc", Json.optional .real r.rocAuc),
  ("loss", Json.optional .real r.loss)]

def read : Reader (Report Float) := fun d => do
  match ← record? ["accuracy", "macro_prf1_metrics", "per_label_soft_scores", "mcc", "roc_auc",
    "loss"] d with
  | [accuracy, hard, soft, mcc, auc, loss] =>
    some ⟨← real? accuracy, ← HardScores.read hard, ← optional? (table? SoftScores.read) soft,
      ← optional? real? mcc, ← optional? real? auc, ← optional? real? loss⟩
  | _ => none

end Report

namespace Counts

def toJson (c : Counts) : Json := .object [
  ("tp", .count c.truePositives),
  ("fp", .count c.falsePositives),
  ("fn_", .count c.falseNegatives),
  ("tn", .count c.trueNegatives)]

def read : Reader Counts := fun d => do
  match ← record? ["tp", "fp", "fn_", "tn"] d with
  | [tp, fp, fn, tn] => some ⟨← count? tp, ← count? fp, ← count? fn, ← count? tn⟩
  | _ => none

end Counts

def readStage (bare : Bare) : Reader Stage :=
  alternative? bare (Stage.all.map fun s => (s.name, s))

def readOutcome (bare : Bare) : Reader Outcome :=
  alternative? bare (Outcome.all.map fun o => (o.name, o))

def readCriterion (bare : Bare) : Reader Criterion :=
  alternative? bare (Criterion.all.map fun c => (c.name, c))

namespace ReportedLabel

def toJson : ReportedLabel → Json
  | one name => .string name
  | several names => Json.strings names

def read : Reader ReportedLabel
  | .text s => s.map .one
  | d => (list? text? d).map .several

end ReportedLabel

def countsJson (xs : List Nat) : Json := .array (xs.map .count)

def scoresJson : Option (List Score) → Json
  | some scores => .object [("Present", .array (scores.map .single))]
  | none => .string "Withheld"

def readScores : Reader (Option (List Score))
  | .record [(some "Present", d)] => (list? score? d).map some
  | d => (alternative? .null [("Withheld", ())] d).map fun _ => none

namespace TopKRow

def toJson (r : TopKRow) : Json := .object [
  ("argmax", .count r.argmax),
  ("candidates", countsJson r.candidates)]

def read : Reader TopKRow := fun d => do
  match ← record? ["argmax", "candidates"] d with
  | [argmax, candidates] => some ⟨← count? argmax, ← list? count? candidates⟩
  | _ => none

end TopKRow

namespace Task

def predictedJson : (t : Task) → t.Predicted → Json
  | singleLabel, p => .count p
  | multiLabel, p => countsJson p
  | topK, p => countsJson p

def expectedJson : (t : Task) → t.Expected → Json
  | singleLabel, e => .count e
  | multiLabel, e => countsJson e
  | topK, e => .count e

def readPredicted : (t : Task) → Reader t.Predicted
  | singleLabel => count?
  | multiLabel => list? count?
  | topK => list? count?

def readExpected : (t : Task) → Reader t.Expected
  | singleLabel => count?
  | multiLabel => list? count?
  | topK => count?

end Task

namespace Example

variable {t : Task}

def toJson (x : Example t) : Json := .object [
  ("scores", scoresJson x.scores),
  ("predicted", t.predictedJson x.predicted),
  ("expected", t.expectedJson x.expected)]

def read : Reader (Example t) := fun d => do
  match ← record? ["scores", "predicted", "expected"] d with
  | [scores, predicted, expected] =>
    some ⟨← readScores scores, ← t.readPredicted predicted, ← t.readExpected expected⟩
  | _ => none

end Example

end EvalReport
