import EvalReport.Config
import EvalReport.Folder
import EvalReport.Json.Reader
import EvalReport.Report.Codec
import EvalReport.Toml.Reader
import EvalReport.Toml.Writer

/-! Settings in files, as JSON or TOML by the extension of the name. What a file leaves out
keeps its default; what is read keeps the limits. -/
namespace EvalReport.Config

open Document

inductive Format where
  | json
  | toml
  deriving DecidableEq, Repr

def Format.ofPath (path : String) : Option Format :=
  match pathExtension path with
  | some "json" => some json
  | some "toml" => some toml
  | _ => none

def fieldNames : List String :=
  ["model_select_metric", "target_label", "text_column_names", "additional_column_names",
    "recall_at_precision_thresholds", "is_memory_efficient", "topk", "output_path",
    "file_channel_stages"]

/-- A field that is there has to be readable; one that is not keeps its default. -/
def given {α : Type} (read : Reader α) (default : α) : Option Document → Option α
  | none => some default
  | some d => read d

def ofFields? (bare : Bare) : List (Option Document) → Option Config
  | [metric, target, columns, additional, thresholds, efficient, topK, path, stages] => do
    let c : Config := {}
    some {
      metric := ← given (readCriterion bare) c.metric metric
      targetLabel := ← given (optional? text?) c.targetLabel target
      textColumns := ← given (list? text?) c.textColumns columns
      additionalColumns := ← given (list? text?) c.additionalColumns additional
      thresholds := ← given (list? real?) c.thresholds thresholds
      memoryEfficient := ← given flag? c.memoryEfficient efficient
      topK := ← given count? c.topK topK
      outputPath := ← given (optional? text?) c.outputPath path
      fileStages := ← given (list? (readStage bare)) c.fileStages stages }
  | _ => none

/-- JSON may also give the fields in order, as an array. -/
def ofDocument? (format : Format) (d : Document) : Option Config := do
  let (_, fields) ← (Fields.mk (format == .json) fieldNames).read d
  ofFields? (match format with | .json => .null | .toml => .empty) fields

def parse (format : Format) (content : String) : Except Fault Config :=
  match format with
  | .json =>
    match (Json.read content).bind (ofDocument? .json) with
    | some c => .ok c
    | none => .error (.config .malformedJson)
  | .toml =>
    match (Toml.read content).bind (ofDocument? .toml) with
    | some c => .ok c
    | none => .error (.config .malformedToml)

def load (folder : Folder) (path : String) : Except Fault Config :=
  match folder.readText path with
  | .error cause => .error (.config (.unreadable cause))
  | .ok content =>
    match Format.ofPath path with
    | none => .error (.config .unsupportedFormat)
    | some format => do
      let c ← parse format content
      c.validate
      .ok c

def toJson (c : Config) : Json := .object [
  ("model_select_metric", .string c.metric.name),
  ("target_label", Json.optional .string c.targetLabel),
  ("text_column_names", Json.strings c.textColumns),
  ("additional_column_names", Json.strings c.additionalColumns),
  ("recall_at_precision_thresholds", .array (c.thresholds.map .real)),
  ("is_memory_efficient", .bool c.memoryEfficient),
  ("topk", .count c.topK),
  ("output_path", Json.optional .string c.outputPath),
  ("file_channel_stages", Json.strings (c.fileStages.map (·.name)))]

def tomlChars (c : Config) : List Char :=
  let strings (xs : List String) := Toml.arrayChars (xs.map .string)
  let pair := Toml.pairChars
  let setting (key : String) (value : Option String) :=
    match value with
    | none => []
    | some s => pair key (Toml.Value.string s).chars
  pair "model_select_metric" (Toml.Value.string c.metric.name).chars ++
  setting "target_label" c.targetLabel ++
  pair "text_column_names" (strings c.textColumns) ++
  pair "additional_column_names" (strings c.additionalColumns) ++
  pair "recall_at_precision_thresholds" (Toml.arrayChars (c.thresholds.map .float)) ++
  pair "is_memory_efficient" (Toml.Value.boolean c.memoryEfficient).chars ++
  pair "topk" (Toml.Value.integer c.topK).chars ++
  setting "output_path" c.outputPath ++
  pair "file_channel_stages" (strings (c.fileStages.map (·.name)))

/-- TOML integers are signed and of 64 bits. -/
def text (format : Format) (c : Config) : Except Fault String :=
  match format with
  | .json => .ok c.toJson.indented
  | .toml =>
    if c.topK < 0x8000000000000000 then .ok (String.ofList c.tomlChars)
    else .error (.serialization .tomlRange)

def save (c : Config) (folder : Folder) (path : String) : Except Fault Folder :=
  match Format.ofPath path with
  | none => .error (.config .unsupportedFormat)
  | some format => do
    let content ← c.text format
    match folder.write path (.text content) with
    | .ok folder => .ok folder
    | .error cause => .error (.io cause.message)

end EvalReport.Config
