import EvalReport.Selection
import EvalReport.Kind

/-! Settings of a reporter, their limits, and how they are built up. -/
namespace EvalReport

structure Config where
  metric : Criterion := .accuracy
  targetLabel : Option String := none
  textColumns : List String := ["text"]
  additionalColumns : List String := []
  thresholds : List Float := defaultThresholds
  memoryEfficient : Bool := false
  topK : Nat := defaultTopK
  outputPath : Option String := none
  fileStages : List Stage := [.test]
  deriving BEq

def textKey : String := "text"

namespace Config

def isProbability (x : Float) : Bool := 0 ≤ x && x ≤ 1

/-- The limits that do not depend on the labels; thresholds are looked at first. -/
def validate (c : Config) : Except Fault Unit :=
  match c.thresholds.find? fun x => !isProbability x with
  | some x =>
    .error (.invalidParameter (.outside .thresholds (Decimal.plain.text (binaryOfFloat x))))
  | none =>
    if c.topK = 0 then
      .error (.invalidParameter (.outside .topK (Decimal.natText c.topK)))
    else .ok ()

def contextColumns (c : Config) : List String := textKey :: c.additionalColumns

inductive Change where
  | metric (c : Criterion)
  | targetLabel (label : String)
  | textColumns (names : List String)
  | additionalColumns (names : List String)
  | thresholds (xs : List Float)
  | memoryEfficient (on : Bool)
  | topK (k : Nat)
  | outputPath (path : String)
  | fileStages (stages : List Stage)

def set (c : Config) : Change → Config
  | .metric x => { c with metric := x }
  | .targetLabel x => { c with targetLabel := some x }
  | .textColumns x => { c with textColumns := x }
  | .additionalColumns x => { c with additionalColumns := x }
  | .thresholds x => { c with thresholds := x }
  | .memoryEfficient x => { c with memoryEfficient := x }
  | .topK x => { c with topK := x }
  | .outputPath x => { c with outputPath := some x }
  | .fileStages x => { c with fileStages := x }

def Change.broken : Change → Option Limit
  | thresholds xs => if xs.any fun x => !isProbability x then some .thresholds else none
  | topK k => if k = 0 then some .topK else none
  | _ => none

/-- Settings made in order. One that breaks its limit is remembered, also when a later one
replaces it. -/
def build (changes : List Change) : Except Fault Config :=
  let c := changes.foldl Config.set {}
  match changes.filterMap Change.broken with
  | [] => c.validate.map fun _ => c
  | limits => .error (.config (.brokenLimits limits))

end Config

end EvalReport
