import EvalReport.Decimal.Layout
import EvalReport.Text.Quoted

/-! What can go wrong, as causes; their wording is in one place. -/
namespace EvalReport

inductive FileFault where
  | nulByte
  | missing
  | isDirectory
  | notDirectory
  | notText
  deriving DecidableEq, Repr

def FileFault.message : FileFault → String
  | nulByte => "file name contained an unexpected NUL byte"
  | missing => "No such file or directory (os error 2)"
  | isDirectory => "Is a directory (os error 21)"
  | notDirectory => "Not a directory (os error 20)"
  | notText => "stream did not contain valid UTF-8"

inductive Limit where
  | thresholds
  | topK
  deriving DecidableEq, Repr

def Limit.setting : Limit → String
  | thresholds => "recall_at_precision_thresholds"
  | topK => "topk"

def Limit.demand : Limit → String
  | thresholds => "must be in range [0.0, 1.0]"
  | topK => "must be at least 1"

inductive ConfigCause where
  | emptyCatalogue
  | duplicateLabel (name : String)
  | binaryOnly (metric : String) (labels : Nat)
  | targetUnset (metric : String)
  | targetUnknown (name : String)
  | unknownMetric (name : String)
  | brokenLimits (limits : List Limit)
  | unreadable (cause : FileFault)
  | malformedJson
  | malformedToml
  | unsupportedFormat
  | other (message : String)
  deriving DecidableEq, Repr

def ConfigCause.message : ConfigCause → String
  | emptyCatalogue => "label catalogue is empty"
  | duplicateLabel name => "duplicate label name " ++ Text.quoted name
  | binaryOnly metric labels =>
    metric ++ " is only valid for binary classification, got " ++ Decimal.natText labels ++
      " labels"
  | targetUnset metric => "target_label must be set to use " ++ metric
  | targetUnknown name => "target_label " ++ Text.quoted name ++ " is not in the label catalogue"
  | unknownMetric name => "unknown model select metric: " ++ name
  | brokenLimits limits =>
    "Configuration validation failed: " ++
      ", ".intercalate (limits.map fun l => l.setting ++ " " ++ l.demand)
  | unreadable cause => "Failed to read config file: " ++ cause.message
  | malformedJson => "Failed to parse JSON config:"
  | malformedToml => "Failed to parse TOML config:"
  | unsupportedFormat => "Unsupported config file format. Use .json or .toml"
  | other message => message

inductive ParameterCause where
  | outside (limit : Limit) (value : String)
  | other (parameter value reason : String)
  deriving DecidableEq, Repr

def ParameterCause.message : ParameterCause → String
  | outside limit value => limit.setting ++ " = " ++ value ++ ", " ++ limit.demand
  | other parameter value reason => parameter ++ " = " ++ value ++ ", " ++ reason

inductive Side where
  | predictions
  | targets
  deriving DecidableEq, Repr

def Side.name : Side → String
  | predictions => "predictions"
  | targets => "targets"

inductive Mismatch where
  | rank (side : Side) (expected actual : Nat)
  | indicatorColumns (expected actual : Nat)
  | scoreRows (expected actual : Nat)
  | scoreWidth (expected actual : Nat)
  | contextValues (key : String) (expected actual : Nat)
  | other (expected actual : String)
  deriving DecidableEq, Repr

def Mismatch.expected : Mismatch → String
  | rank side expected _ => "rank-" ++ Decimal.natText expected ++ " " ++ side.name
  | indicatorColumns expected _ => Decimal.natText expected ++ " indicator columns"
  | scoreRows expected _ => Decimal.natText expected ++ " score rows"
  | scoreWidth expected _ => Decimal.natText expected ++ " scores per example"
  | contextValues key expected _ =>
    Decimal.natText expected ++ " values for context " ++ Text.quoted key
  | other expected _ => expected

def Mismatch.actual : Mismatch → String
  | rank _ _ actual => "rank-" ++ Decimal.natText actual
  | indicatorColumns _ actual => Decimal.natText actual ++ " columns"
  | scoreRows _ actual => Decimal.natText actual ++ " rows"
  | scoreWidth _ actual => Decimal.natText actual ++ " scores"
  | contextValues _ _ actual => Decimal.natText actual ++ " values"
  | other _ actual => actual

inductive ContractCause where
  | targetCount (batch predictions targets : Nat)
  | scoresRequired (batch : Nat)
  | matrixRequired
  | missingColumn (name : String)
  | other (message : String)
  deriving DecidableEq, Repr

def ContractCause.message : ContractCause → String
  | targetCount batch predictions targets =>
    "batch " ++ Decimal.natText batch ++ ": " ++ Decimal.natText predictions ++
      " predictions but " ++ Decimal.natText targets ++ " targets"
  | scoresRequired batch =>
    "batch " ++ Decimal.natText batch ++
      ": scores are required unless memory-efficient mode is on"
  | matrixRequired => "top-k reporting needs the batch score matrix"
  | missingColumn name => "raw input row has no column " ++ Text.quoted name
  | other message => message

inductive SerialCause where
  | tomlRange
  | other (message : String)
  deriving DecidableEq, Repr

def SerialCause.message : SerialCause → String
  | tomlRange => "Failed to serialize to TOML:"
  | other message => message

inductive Fault where
  | config (cause : ConfigCause)
  | invalidParameter (cause : ParameterCause)
  | dimensionMismatch (cause : Mismatch)
  | indexOutOfBounds (index : Int) (length : Nat)
  | dataContract (cause : ContractCause)
  | metricUnavailable (metric reason : String)
  | serialization (cause : SerialCause)
  | io (message : String)
  | csv (message : String)
  | json (message : String)
  | internal (message : String)
  deriving DecidableEq, Repr

namespace Fault

def message : Fault → String
  | config cause => "Configuration error: " ++ cause.message
  | invalidParameter cause => "Invalid parameter: " ++ cause.message
  | dimensionMismatch cause =>
    "Dimension mismatch: expected " ++ cause.expected ++ ", got " ++ cause.actual
  | indexOutOfBounds index length =>
    "Index out of bounds: index " ++ Decimal.intText index ++ ", length " ++ Decimal.natText length
  | dataContract cause => "Data contract violation: " ++ cause.message
  | metricUnavailable metric reason => "Metric unavailable: " ++ metric ++ " (" ++ reason ++ ")"
  | serialization cause => "Serialization error: " ++ cause.message
  | io message => "I/O error: " ++ message
  | csv message => "CSV error: " ++ message
  | json message => "JSON error: " ++ message
  | internal message => "Internal error: " ++ message

def category : Fault → String
  | config _ => "config"
  | invalidParameter _ => "invalid_parameter"
  | dimensionMismatch _ => "dimension_mismatch"
  | indexOutOfBounds .. => "index_out_of_bounds"
  | dataContract _ => "data_contract"
  | metricUnavailable .. => "metric_unavailable"
  | serialization _ => "serialization"
  | io _ => "io"
  | csv _ => "csv"
  | json _ => "json"
  | internal _ => "internal"

/-- Only what a file refused may succeed when tried again. -/
def isRecoverable : Fault → Bool
  | io _ => true
  | csv _ => true
  | _ => false

/-- A label offset past a catalogue is shown as a signed 64-bit integer. -/
def labelOutOfBounds (label catalogue : Nat) : Fault :=
  .indexOutOfBounds (Int.bmod label 0x10000000000000000) catalogue

end Fault

end EvalReport
