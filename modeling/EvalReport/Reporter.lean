import EvalReport.Channel
import EvalReport.Config
import EvalReport.Pass

/-! A reporter: one pass at a time, its settings checked before the first batch, its report
sent to the channels at the end. -/
namespace EvalReport

structure Reporter where
  config : Config
  labels : List String
  selection : Selection
  kind : Kind
  pass : Pass kind.task
  channels : List Channel

def textSeparator : String := " | "

def labelNamesKey : String := "label_names"

def firstRepeated : List String → List String → Option String
  | _, [] => none
  | seen, x :: xs => if seen.contains x then some x else firstRepeated (x :: seen) xs

namespace Reporter

def startedNote (kind : Kind) (labels : List String) (selection : Selection) : LogLine :=
  ⟨.debug, kind.name ++ " reporter over " ++ Decimal.natText labels.length ++
    " labels, selecting on " ++ selection.text⟩

def checkLabels (labels : List String) : Except Fault Unit :=
  if labels = [] then .error (.config .emptyCatalogue)
  else match firstRepeated [] labels with
    | some name => .error (.config (.duplicateLabel name))
    | none => .ok ()

def fileChannels (c : Config) : List Channel :=
  match c.outputPath with
  | none => []
  | some path => [.file ⟨path, c.fileStages, c.contextColumns⟩]

def new (kind : Kind) (labels : List String) (config : Config) :
    Except Fault (Reporter × List LogLine) := do
  config.validate
  checkLabels labels
  let selection ← config.metric.resolve config.targetLabel labels
  .ok (⟨config, labels, selection, kind, {}, fileChannels config⟩,
    [startedNote kind labels selection])

def addChannel (r : Reporter) (c : Channel) : Reporter :=
  { r with channels := r.channels ++ [c] }

def rules (r : Reporter) : PassRules := ⟨r.kind, r.labels.length, r.config.memoryEfficient⟩

/-! ### Context of raw rows -/

def cell (row : Table Json) (column : String) : Except Fault Json :=
  match row.find? column with
  | some value => .ok value
  | none => .error (.dataContract (.missingColumn column))

def textOf (columns : List String) (row : Table Json) : Except Fault Json :=
  (collectOk (cell row) columns).map fun parts =>
    .string (textSeparator.intercalate (parts.map Json.plainText))

def addColumn (rows : List (Table Json)) (context : Table ContextValue) (column : String) :
    Except Fault (Table ContextValue) :=
  (collectOk (fun row => cell row column) rows).map fun values =>
    context.insert column (.sequence values)

def addColumns (rows : List (Table Json)) :
    List String → Table ContextValue → Except Fault (Table ContextValue)
  | [], context => .ok context
  | column :: rest, context => do
    addColumns rows rest (← addColumn rows context column)

/-- The text columns joined under `text`, then the additional columns as they are. -/
def batchContext (r : Reporter) (rows : List (Table Json)) : Except Fault (Table ContextValue) := do
  let texts ← collectOk (textOf r.config.textColumns) rows
  addColumns rows r.config.additionalColumns (Table.empty.insert textKey (.sequence texts))

/-! ### The pass -/

def addBatch (r : Reporter) (batch : Batch) (input : ModelInput) (context : Table ContextValue) :
    Reporter × ModelInput × List LogLine × Except Fault Unit :=
  let done := r.rules.ingest r.pass batch input context
  ({ r with pass := done.pass }, done.input, done.log, done.result)

def options (r : Reporter) : ReportOptions Float :=
  ⟨!r.config.memoryEfficient, r.config.thresholds, true⟩

def metrics (r : Reporter) : Except Fault (Report Float × List LogLine) := do
  let examples ← r.pass.finish r.config.memoryEfficient
  Report.compute r.labels examples r.pass.loss r.options

def predictions (r : Reporter) : Except Fault (List ReportedLabel) := r.pass.predictions r.labels

def targets (r : Reporter) : Except Fault (List ReportedLabel) := r.pass.targets r.labels

def reset (r : Reporter) : Reporter := { r with pass := {} }

/-- What the end of a pass leaves: the reporter, the folder, the log, the report that the
channels were shown, the positions of those called, and the outcome. -/
structure Ended where
  reporter : Reporter
  folder : Folder
  log : List LogLine
  shown : Option StageReport
  called : List Nat
  result : Except Fault (Report Float)

def fourDecimals (x : Float) : String := Decimal.fixed 4 (binaryOfFloat x)

def summary (r : Reporter) (stage : Stage) (epoch : Nat) (m : Report Float) (selected : Float) :
    LogLine :=
  ⟨.info, stage.name ++ " epoch " ++ Decimal.natText epoch ++ ": " ++ r.selection.text ++ " = " ++
    fourDecimals selected ++ ", accuracy = " ++ fourDecimals m.accuracy ++ ", macro f1 = " ++
    fourDecimals m.hard.overall.f1 ++ ", loss = " ++ (m.loss.map fourDecimals).getD "n/a"⟩

def stageReport (r : Reporter) (stage : Stage) (epoch : Nat) (m : Report Float)
    (selected : Float) : Except Fault StageReport := do
  .ok {
    stage := stage
    epoch := epoch
    metrics := m
    selected := selected
    predictions := ← r.predictions
    targets := ← r.targets
    scores := r.pass.scores
    context := r.pass.context
    labels := r.labels }

/-- Ends a pass: computes the report, shows it to the channels that accept the stage, and
resets the pass if asked to. A failure leaves the pass as it was. -/
def endPass (r : Reporter) (folder : Folder) (stage : Stage) (epoch : Nat) (clear : Bool) : Ended :=
  let failed (log : List LogLine) (fault : Fault) : Ended :=
    ⟨r, folder, log, none, [], .error fault⟩
  match r.metrics with
  | .error fault => failed [] fault
  | .ok (m, log) =>
    match r.selection.extract m with
    | .error fault => failed log fault
    | .ok selected =>
      let log := log ++ [r.summary stage epoch m selected]
      let left := if clear then r.reset else r
      if r.channels.any (·.accepts stage) then
        match r.stageReport stage epoch m selected with
        | .error fault => failed log fault
        | .ok report =>
          let d := dispatch report folder r.channels.zipIdx
          match d.fault with
          | some fault => ⟨r, d.folder, log ++ d.log, some report, d.called, .error fault⟩
          | none => ⟨left, d.folder, log ++ d.log, some report, d.called, .ok m⟩
      else ⟨left, folder, log, none, [], .ok m⟩

end Reporter

end EvalReport
