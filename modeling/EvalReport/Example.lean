import EvalReport.Confusion
import EvalReport.Fault
import EvalReport.Label

/-! Judged examples of the three classification tasks. They differ in how many labels are
predicted and expected, and in which wrong predictions are charged. -/
namespace EvalReport

inductive Task where
  | singleLabel
  | multiLabel
  | topK
  deriving DecidableEq, Repr

namespace Task

abbrev Predicted : Task → Type
  | singleLabel => Nat
  | multiLabel => List Nat
  | topK => List Nat

abbrev Expected : Task → Type
  | singleLabel => Nat
  | multiLabel => List Nat
  | topK => Nat

def isRanked : Task → Bool
  | topK => false
  | _ => true

def isBinary : Task → Bool
  | singleLabel => true
  | _ => false

def expectedLabels : (t : Task) → t.Expected → List Nat
  | singleLabel, e => [e]
  | multiLabel, e => e
  | topK, e => [e]

def predictedLabels : (t : Task) → t.Predicted → List Nat
  | singleLabel, p => [p]
  | multiLabel, p => p
  | topK, p => p

end Task

/-- Labels are offsets into a catalogue. Scores are one per label, or withheld. -/
structure Example (t : Task) where
  scores : Option (List Score)
  predicted : t.Predicted
  expected : t.Expected

namespace Example

variable {t : Task}

def expectedLabels (x : Example t) : List Nat := t.expectedLabels x.expected

def predictedLabels (x : Example t) : List Nat := t.predictedLabels x.predicted

def predicts (x : Example t) (label : Nat) : Bool := x.predictedLabels.contains label

def expects (x : Example t) (label : Nat) : Bool := x.expectedLabels.contains label

/-- The labels charged with a false positive. A top-k example that misses charges its first
candidate only. -/
def charged : {t : Task} → Example t → List Nat
  | .topK, x => if x.predicts x.expected then [] else x.predicted.head?.toList
  | .singleLabel, x => x.predictedLabels.filter fun label => !x.expects label
  | .multiLabel, x => x.predictedLabels.filter fun label => !x.expects label

def hits (x : Example t) : Nat := x.expectedLabels.countP x.predicts

def opportunities (x : Example t) : Nat := x.expectedLabels.length

def confusions (x : Example t) : List (Nat × Outcome) :=
  (x.expectedLabels.map fun label =>
    (label, if x.predicts label then .truePositive else .falseNegative)) ++
  x.charged.map fun label => (label, .falsePositive)

def referenced (x : Example t) : List Nat := x.predictedLabels ++ x.expectedLabels

end Example

def indicated (row : List Int) : List Nat :=
  (row.zipIdx.filter fun e => 0 < e.1).map (·.2)

/-- The labels of a padded row: padding is skipped, any other negative entry is at fault. -/
def unpadded (catalogue : Nat) : List Int → Except Fault (List Nat)
  | [] => .ok []
  | raw :: rest =>
    if raw = noLabel then unpadded catalogue rest
    else if raw < 0 then .error (.indexOutOfBounds raw catalogue)
    else (unpadded catalogue rest).map (raw.toNat :: ·)

def Example.ofRows (scores : Option (List Score)) (indicator padded : List Int) :
    Except Fault (Example .multiLabel) :=
  (unpadded indicator.length padded).map fun expected => ⟨scores, indicated indicator, expected⟩

end EvalReport
