import EvalReport.Arithmetic

/-! Metrics of a ranking of examples by score: average precision, recall at a demanded
precision, and the area under the ROC curve.

Examples of numerically equal scores cannot be told apart by a cut-off, so all three are
worked out over runs of equal scores. Sorting is stable in the total order of scores. -/
namespace EvalReport

structure Judged where
  relevant : Bool
  score : Score
  deriving DecidableEq, Repr

namespace Ranking

def pair (relevant : List Bool) (scores : List Score) : List Judged :=
  relevant.zipWith Judged.mk scores

def positives (xs : List Judged) : Nat := xs.countP (·.relevant)

/-- Best score first; among equal ones the earlier example keeps its place. -/
def descending (xs : List Judged) : List Judged :=
  xs.mergeSort fun a b => b.score.place ≤ a.score.place

def ascending (xs : List Judged) : List Judged :=
  xs.mergeSort fun a b => a.score.place ≤ b.score.place

/-- Neighbours of numerically equal scores, kept together. -/
def runs (xs : List Judged) : List (List Judged) :=
  xs.splitBy fun a b => a.score.same b.score

/-- What a cut-off at `score` selects: so many examples, so many of them relevant. -/
structure Cut where
  positives : Nat
  selected : Nat
  score : Score
  deriving DecidableEq, Repr

def cutsFrom (seen selected : Nat) : List (List Judged) → List Cut
  | [] => []
  | run :: rest =>
    let seen := seen + positives run
    let selected := selected + run.length
    match run.getLast? with
    | none => cutsFrom seen selected rest
    | some last => ⟨seen, selected, last.score⟩ :: cutsFrom seen selected rest

def cuts (ranked : List Judged) : List Cut := cutsFrom 0 0 (runs ranked)

open Arithmetic

variable {α : Type} [Arithmetic α]

def Cut.precision (c : Cut) : α := share c.positives c.selected
def Cut.recallRate (c : Cut) (total : Nat) : α := share c.positives total

/-- Precision at each cut, weighted by the recall gained there; zero without positives. -/
def averagePrecision (total : Nat) (cs : List Cut) : α :=
  if total = 0 then zero
  else
    (cs.foldl (fun (area, before) c =>
      let recallRate := c.recallRate total
      (area + (recallRate - before) * c.precision, recallRate)) ((zero : α), (zero : α))).1

def best (total : Nat) (accepts : α → Bool) (cs : List Cut) : Option (α × Score) :=
  (cs.filter fun c => accepts c.precision).foldl (fun best c =>
    let recallRate := c.recallRate total
    match best with
    | none => some (recallRate, c.score)
    | some (r, s) => some (if below r recallRate then recallRate else r, s.lesser c.score)) none

/-- The best recall that keeps a precision, and the score to cut at. Both are zero where
the precision is out of reach. -/
structure OperatingPoint (α : Type) where
  threshold : α
  recallRate : α
  cutOff : α

def operatingPoint (total : Nat) (cs : List Cut) (threshold : α) : OperatingPoint α :=
  if total = 0 then ⟨threshold, zero, zero⟩
  else match best total (fun p => !below p threshold) cs with
    | none => ⟨threshold, zero, zero⟩
    | some (recallRate, score) => ⟨threshold, recallRate, ofScore score⟩

/-- The sum of the ranks of the positives, from one up; tied examples share the mean of
their ranks. -/
def positiveRanks (before : Nat) (sum : α) : List (List Judged) → α
  | [] => sum
  | run :: rest =>
    let next := before + run.length
    let rank : α := ofCount (before + 1 + next) / ofCount 2
    positiveRanks next (sum + rank * ofCount (positives run)) rest

def rocAuc (xs : List Judged) : Option α :=
  let p := positives xs
  let n := xs.length - p
  if p = 0 || n = 0 then none
  else
    let ranks : α := positiveRanks 0 zero (runs (ascending xs))
    let least : α := ofCount p * (ofCount p + ofCount 1) / ofCount 2
    some ((ranks - least) / (ofCount p * ofCount n))

end Ranking

structure SoftScores (α : Type) where
  averagePrecision : α
  recallAtPrecision : List (Ranking.OperatingPoint α)
  rocAuc : Option α

namespace SoftScores

open Ranking

variable {α : Type} [Arithmetic α]

def compute (xs : List Judged) (thresholds : List α) : SoftScores α :=
  let total := positives xs
  let cs := cuts (descending xs)
  ⟨Ranking.averagePrecision total cs, thresholds.map (operatingPoint total cs), Ranking.rocAuc xs⟩

def recallAt (s : SoftScores Float) (threshold : Float) : Option Float :=
  (s.recallAtPrecision.find? fun e => e.threshold == threshold).map (·.recallRate)

end SoftScores

namespace Ranking

/-- Relevances and scores given apart, already ranked. The relevances may run on past the
scores, but each score needs one, unless there is nothing relevant to look for. -/
def paired (relevant : List Bool) (scores : List Score) : Option (Nat × List Judged) :=
  let total := relevant.count true
  if total ≠ 0 && relevant.length < scores.length then none
  else some (total, pair relevant scores)

variable {α : Type} [Arithmetic α]

def averagePrecision? (relevant : List Bool) (scores : List Score) : Option α :=
  (paired relevant scores).map fun (total, xs) => averagePrecision total (cuts xs)

def operatingPoints? (relevant : List Bool) (scores : List Score) (thresholds : List α) :
    Option (List (OperatingPoint α)) :=
  (paired relevant scores).map fun (total, xs) => thresholds.map (operatingPoint total (cuts xs))

def matthews (truePositives falsePositives falseNegatives trueNegatives : Nat) : α :=
  let tp : α := Arithmetic.ofCount truePositives
  let fp : α := Arithmetic.ofCount falsePositives
  let fn : α := Arithmetic.ofCount falseNegatives
  let tn : α := Arithmetic.ofCount trueNegatives
  Arithmetic.ratio (tp * tn - fp * fn)
    (Arithmetic.sqrt ((tp + fp) * (tp + fn) * (tn + fp) * (tn + fn)))

/-- The offsets of the `k` best scores, best first; of equal ones the lower comes first. -/
def topK (k : Nat) (scores : List Score) : List Nat :=
  ((scores.zipIdx.mergeSort fun a b => b.1.place ≤ a.1.place).map (·.2)).take k

end Ranking

end EvalReport
