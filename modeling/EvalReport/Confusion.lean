import EvalReport.Arithmetic
import EvalReport.Table

/-! Confusion counts by label name. A label that nothing was recorded for is not in the
tracker and takes no part in the averages. -/
namespace EvalReport

inductive Outcome where
  | truePositive
  | falsePositive
  | falseNegative
  | trueNegative
  deriving DecidableEq, Repr

namespace Outcome

def name : Outcome → String
  | truePositive => "TP"
  | falsePositive => "FP"
  | falseNegative => "FN"
  | trueNegative => "TN"

def all : List Outcome := [truePositive, falsePositive, falseNegative, trueNegative]

end Outcome

structure Counts where
  truePositives : Nat := 0
  falsePositives : Nat := 0
  falseNegatives : Nat := 0
  trueNegatives : Nat := 0
  deriving DecidableEq, Repr

def Counts.record (c : Counts) (outcome : Outcome) (n : Nat) : Counts :=
  match outcome with
  | .truePositive => { c with truePositives := c.truePositives + n }
  | .falsePositive => { c with falsePositives := c.falsePositives + n }
  | .falseNegative => { c with falseNegatives := c.falseNegatives + n }
  | .trueNegative => { c with trueNegatives := c.trueNegatives + n }

structure LabelScores (α : Type) where
  truePositives : Nat
  falsePositives : Nat
  falseNegatives : Nat
  precision : α
  recallRate : α
  f1 : α

structure MacroScores (α : Type) where
  labels : Nat
  precision : α
  recallRate : α
  f1 : α

structure HardScores (α : Type) where
  perLabel : Table (LabelScores α)
  overall : MacroScores α

open Arithmetic

variable {α : Type} [Arithmetic α]

def Counts.scores (c : Counts) : LabelScores α :=
  let precision : α := share c.truePositives (c.truePositives + c.falsePositives)
  let recallRate : α := share c.truePositives (c.truePositives + c.falseNegatives)
  ⟨c.truePositives, c.falsePositives, c.falseNegatives,
    precision, recallRate, harmonic precision recallRate⟩

abbrev Tracker := Table Counts

namespace Tracker

def record (t : Tracker) (label : String) (outcome : Outcome) (n : Nat) : Tracker :=
  t.alter label fun old => (old.getD {}).record outcome n

def counts (t : Tracker) (label : String) : Counts := (t.find? label).getD {}

def average (t : Tracker) (part : LabelScores α → α) : α :=
  ratio ((t.entries.map fun e => part e.2.scores).foldl (· + ·) zero) (ofCount t.size)

/-- The scores of the labels, and their averages. The former are left out on request; the
averages are over all labels either way. -/
def scores (t : Tracker) (keepLabels : Bool) : HardScores α where
  perLabel := if keepLabels then t.map Counts.scores else ∅
  overall := ⟨t.size, t.average (·.precision), t.average (·.recallRate), t.average (·.f1)⟩

end Tracker

end EvalReport
