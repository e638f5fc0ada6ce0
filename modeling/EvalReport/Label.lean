/-! Stages of an evaluation, and label names as they are reported. -/
namespace EvalReport

inductive Stage where
  | train
  | eval
  | test
  deriving DecidableEq, Repr

namespace Stage

def name : Stage → String
  | train => "train"
  | eval => "eval"
  | test => "test"

def all : List Stage := [train, eval, test]

end Stage

inductive ReportedLabel where
  | one (name : String)
  | several (names : List String)
  deriving DecidableEq, Repr

def ReportedLabel.text : ReportedLabel → String
  | one name => name
  | several names => ",".intercalate names

/-- What stands for "no label" in a padded row of targets. -/
def noLabel : Int := -1

end EvalReport
