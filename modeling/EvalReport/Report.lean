import EvalReport.Example
import EvalReport.Log
import EvalReport.Ranking

/-! The report of a pass: accuracy, confusion scores, and what scores allow to compute. -/
namespace EvalReport

def defaultThresholds : List Float := [0.2, 0.4, 0.6, 0.8, 0.9]

structure ReportOptions (α : Type) where
  soft : Bool
  thresholds : List α
  keepLabels : Bool

def ReportOptions.default : ReportOptions Float := ⟨true, defaultThresholds, true⟩

structure Report (α : Type) where
  accuracy : α
  hard : HardScores α
  soft : Option (Table (SoftScores α))
  mcc : Option α
  rocAuc : Option α
  loss : Option α

namespace Report

open Arithmetic Ranking

variable {t : Task}

/-- The first label that lies past the catalogue, in the order of the examples. -/
def strayLabel (catalogue : Nat) (xs : List (Example t)) : Option Nat :=
  (xs.flatMap (·.referenced)).find? fun label => catalogue ≤ label

def tally (labels : List String) (xs : List (Example t)) : Tracker :=
  (xs.flatMap (·.confusions)).foldl
    (fun tracker (label, outcome) => tracker.record (labels.getD label "") outcome 1) ∅

/-- The score rows, if none is withheld. The first example without a row of the catalogue's
width decides: it withholds, or its width is at fault. -/
def scoreRows (catalogue : Nat) : List (Example t) → Except Fault (Option (List (List Score)))
  | [] => .ok (some [])
  | x :: xs =>
    match x.scores with
    | none => .ok none
    | some row =>
      if row.length = catalogue then
        (scoreRows catalogue xs).map fun rows => rows.map (row :: ·)
      else .error (.dimensionMismatch (.scoreWidth catalogue row.length))

def judged (xs : List (Example t)) (rows : List (List Score)) (label : Nat) : List Judged :=
  xs.zipWith (fun x row => ⟨x.expects label, row.getD label ⟨0⟩⟩) rows

def withheldWarning : LogLine :=
  ⟨.warn, "soft scores requested but score vectors were withheld; skipping"⟩

variable {α : Type} [Arithmetic α]

def softScores (labels : List String) (thresholds : List α) (xs : List (Example t))
    (rows : List (List Score)) : Table (SoftScores α) :=
  Table.ofList (labels.zipIdx.map fun (name, label) =>
    (name, SoftScores.compute (judged xs rows label) thresholds))

def total (count : Example t → Nat) (xs : List (Example t)) : Nat :=
  xs.foldl (fun n x => n + count x) 0

def hardOnly (labels : List String) (xs : List (Example t)) (loss : Option α)
    (keepLabels : Bool) : Report α where
  accuracy := share (total Example.hits xs) (total Example.opportunities xs)
  hard := (tally labels xs).scores keepLabels
  soft := none
  mcc := none
  rocAuc := none
  loss := loss

/-- Correlation of a catalogue of two labels, the first playing the positive class. -/
def binaryMcc (labels : List String) (tracker : Tracker) : α :=
  let positive := tracker.counts (labels.getD 0 "")
  let negative := tracker.counts (labels.getD 1 "")
  matthews positive.truePositives positive.falsePositives positive.falseNegatives
    negative.truePositives

def withScores (labels : List String) (xs : List (Example t)) (rows : List (List Score))
    (thresholds : List α) (r : Report α) : Report α :=
  let soft := softScores labels thresholds xs rows
  if t.isBinary && labels.length == 2 then
    { r with
      soft := some soft
      mcc := some (binaryMcc labels (tally labels xs))
      rocAuc := Ranking.rocAuc (judged xs rows 0) }
  else { r with soft := some soft }

/-- The full report, and the lines logged on the way. It fails where a label lies past the
catalogue, or where a score row of another width is found before one that is withheld. -/
def compute (labels : List String) (xs : List (Example t)) (loss : Option α)
    (options : ReportOptions α) : Except Fault (Report α × List LogLine) :=
  match strayLabel labels.length xs with
  | some label => .error (.labelOutOfBounds label labels.length)
  | none =>
    let report := hardOnly labels xs loss options.keepLabels
    if t.isRanked && options.soft then
      match scoreRows labels.length xs with
      | .error fault => .error fault
      | .ok none => .ok (report, [withheldWarning])
      | .ok (some rows) => .ok (withScores labels xs rows options.thresholds report, [])
    else .ok (report, [])

end Report

end EvalReport
