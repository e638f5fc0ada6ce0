import EvalReport.Report

/-! Model selection: the one number of a report by which checkpoints are compared. What a
metric needs of the labels is settled before the first batch. -/
namespace EvalReport

inductive Criterion where
  | accuracy
  | rocAuc
  | mcc
  | macroF1
  | labelF1
  | labelAveragePrecision
  | labelRocAuc
  | negativeLoss
  deriving DecidableEq, Repr

inductive Precondition where
  | nothing
  | targetLabel
  | binaryLabels
  deriving DecidableEq, Repr

inductive Selection where
  | accuracy
  | rocAuc
  | mcc
  | macroF1
  | labelF1 (label : String)
  | labelAveragePrecision (label : String)
  | labelRocAuc (label : String)
  | negativeLoss
  deriving DecidableEq, Repr

def Precondition.name : Precondition → String
  | nothing => "none"
  | targetLabel => "target_label"
  | binaryLabels => "binary_labels"

namespace Criterion

def all : List Criterion :=
  [accuracy, rocAuc, mcc, macroF1, labelF1, labelAveragePrecision, labelRocAuc, negativeLoss]

def name : Criterion → String
  | accuracy => "accuracy"
  | rocAuc => "roc_auc"
  | mcc => "mcc"
  | macroF1 => "macro_f1"
  | labelF1 => "label_f1"
  | labelAveragePrecision => "label_avg_precision"
  | labelRocAuc => "label_roc_auc"
  | negativeLoss => "negative_loss"

def ofName (name : String) : Except Fault Criterion :=
  match all.find? fun c => c.name == name with
  | some c => .ok c
  | none => .error (.config (.unknownMetric name))

def precondition : Criterion → Precondition
  | labelF1 => .targetLabel
  | labelAveragePrecision => .targetLabel
  | labelRocAuc => .targetLabel
  | rocAuc => .binaryLabels
  | mcc => .binaryLabels
  | accuracy => .nothing
  | macroF1 => .nothing
  | negativeLoss => .nothing

def target (c : Criterion) (target : Option String) (labels : List String) :
    Except Fault String :=
  match target with
  | none => .error (.config (.targetUnset c.name))
  | some name =>
    if labels.contains name then .ok name else .error (.config (.targetUnknown name))

def binary (c : Criterion) (labels : List String) : Except Fault Unit :=
  if labels.length = 2 then .ok () else .error (.config (.binaryOnly c.name labels.length))

def resolve (c : Criterion) (target : Option String) (labels : List String) :
    Except Fault Selection :=
  match c with
  | accuracy => .ok .accuracy
  | macroF1 => .ok .macroF1
  | negativeLoss => .ok .negativeLoss
  | rocAuc => (c.binary labels).map fun _ => .rocAuc
  | mcc => (c.binary labels).map fun _ => .mcc
  | labelF1 => (c.target target labels).map .labelF1
  | labelAveragePrecision => (c.target target labels).map .labelAveragePrecision
  | labelRocAuc => (c.target target labels).map .labelRocAuc

end Criterion

namespace Selection

def criterion : Selection → Criterion
  | accuracy => .accuracy
  | rocAuc => .rocAuc
  | mcc => .mcc
  | macroF1 => .macroF1
  | labelF1 _ => .labelF1
  | labelAveragePrecision _ => .labelAveragePrecision
  | labelRocAuc _ => .labelRocAuc
  | negativeLoss => .negativeLoss

def label? : Selection → Option String
  | labelF1 label => some label
  | labelAveragePrecision label => some label
  | labelRocAuc label => some label
  | _ => none

def text (s : Selection) : String :=
  match s.label? with
  | some label => s.criterion.name ++ "[" ++ label ++ "]"
  | none => s.criterion.name

def ofCriterion (label : String) : Criterion → Selection
  | .accuracy => .accuracy
  | .rocAuc => .rocAuc
  | .mcc => .mcc
  | .macroF1 => .macroF1
  | .labelF1 => .labelF1 label
  | .labelAveragePrecision => .labelAveragePrecision label
  | .labelRocAuc => .labelRocAuc label
  | .negativeLoss => .negativeLoss

def labelSoft (r : Report Float) (label : String) : Option (SoftScores Float) :=
  r.soft.bind fun soft => soft.find? label

def value? (s : Selection) (r : Report Float) : Option Float :=
  match s with
  | accuracy => some r.accuracy
  | rocAuc => r.rocAuc
  | mcc => r.mcc
  | macroF1 => some r.hard.overall.f1
  | labelF1 label => (r.hard.perLabel.find? label).map (·.f1)
  | labelAveragePrecision label => (labelSoft r label).map (·.averagePrecision)
  | labelRocAuc label => (labelSoft r label).bind (·.rocAuc)
  | negativeLoss => r.loss.map fun loss => -loss

def extract (s : Selection) (r : Report Float) : Except Fault Float :=
  match s.value? r with
  | some value => .ok value
  | none => .error (.metricUnavailable s.text "not present in the report")

end Selection

/-- Whether a new value beats an old one; anything beats none. -/
def improves (new : Float) : Option Float → Bool
  | none => true
  | some old => old < new

end EvalReport
