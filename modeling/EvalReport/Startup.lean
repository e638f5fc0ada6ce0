import EvalReport.Log

/-! Starting the library up. A second start changes nothing. -/
namespace EvalReport

def version : String := "0.1.0"

structure Library where
  started : Bool := false

def Library.start (l : Library) : Library × List LogLine :=
  if l.started then (l, [])
  else (⟨true⟩, [⟨.debug, "classification reporter " ++ version ++ " initialized"⟩])

end EvalReport
