import EvalReport.Folder
import EvalReport.Json
import EvalReport.Label
import EvalReport.Report
import EvalReport.Tsv

/-! Output channels: where the report of a finished pass goes. -/
namespace EvalReport

structure StageReport where
  stage : Stage
  epoch : Nat
  metrics : Report Float
  selected : Float
  predictions : List ReportedLabel
  targets : List ReportedLabel
  scores : List (List Score)
  context : Table (List Json)
  labels : List String

/-- A table of the examples of a pass, written over at each report. -/
structure PredictionFile where
  path : String
  stages : List Stage
  columns : List String

namespace PredictionFile

def header (f : PredictionFile) : List String :=
  ["prediction", "target", "scores"] ++ f.columns

def scoreCell (r : StageReport) (i : Nat) : String :=
  match r.scores[i]? with
  | some row => (Json.array (row.map .single)).compact
  | none => ""

def contextCell (r : StageReport) (i : Nat) (column : String) : String :=
  match (r.context.find? column).bind fun values => values[i]? with
  | some value => value.plainText
  | none => ""

def row (f : PredictionFile) (r : StageReport) (pair : ReportedLabel × ReportedLabel) (i : Nat) :
    List String :=
  [pair.1.text, pair.2.text, scoreCell r i] ++ f.columns.map (contextCell r i)

def rows (f : PredictionFile) (r : StageReport) : List (List String) :=
  (r.predictions.zip r.targets).zipIdx.map fun (pair, i) => f.row r pair i

def text (f : PredictionFile) (r : StageReport) : String :=
  Tsv.text (f.header :: f.rows r)

def writtenNote (f : PredictionFile) (r : StageReport) : LogLine :=
  ⟨.info, r.stage.name ++ " epoch " ++ Decimal.natText r.epoch ++ ": wrote " ++
    Decimal.natText r.predictions.length ++ " predictions to " ++ f.path⟩

end PredictionFile

inductive Channel where
  | file (f : PredictionFile)
  | relay (stages : List Stage) (refusal : StageReport → Option Fault)

structure Delivery where
  folder : Folder
  log : List LogLine
  fault : Option Fault

namespace Channel

def stages : Channel → List Stage
  | file f => f.stages
  | relay stages _ => stages

def accepts (c : Channel) (stage : Stage) : Bool := c.stages.contains stage

def deliver (c : Channel) (r : StageReport) (folder : Folder) : Delivery :=
  match c with
  | file f =>
    match folder.write f.path (.text (f.text r)) with
    | .ok folder => ⟨folder, [f.writtenNote r], none⟩
    | .error cause => ⟨folder, [], some (.csv cause.message)⟩
  | relay _ refusal => ⟨folder, [], refusal r⟩

end Channel

/-- Deliveries to several channels: the positions of those called, in order. -/
structure Dispatch where
  called : List Nat
  folder : Folder
  log : List LogLine
  fault : Option Fault

/-- Calls the channels in order, from position `i` on, up to the first that fails. -/
def dispatch (r : StageReport) (folder : Folder) : List (Channel × Nat) → Dispatch
  | [] => ⟨[], folder, [], none⟩
  | (channel, i) :: rest =>
    if channel.accepts r.stage then
      let d := channel.deliver r folder
      match d.fault with
      | some fault => ⟨[i], d.folder, d.log, some fault⟩
      | none =>
        let more := dispatch r d.folder rest
        ⟨i :: more.called, more.folder, d.log ++ more.log, more.fault⟩
    else dispatch r folder rest

end EvalReport
