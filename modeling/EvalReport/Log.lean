/-! Log lines, kept as values beside the results of the steps that write them. -/
namespace EvalReport

inductive Level where
  | debug
  | info
  | warn
  deriving DecidableEq, Repr

def Level.name : Level → String
  | debug => "DEBUG"
  | info => "INFO"
  | warn => "WARN"

structure LogLine where
  level : Level
  message : String
  deriving DecidableEq, Repr

def LogLine.text (l : LogLine) : String := l.level.name ++ " " ++ l.message

end EvalReport
