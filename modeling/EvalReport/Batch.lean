import EvalReport.Arithmetic
import EvalReport.Json
import EvalReport.Tensor

/-! What comes with a batch: outputs of the model, its input, and context. -/
namespace EvalReport

inductive Measure where
  | count (n : Nat)
  | integer (i : Int)
  | single (s : Score)
  | double (x : Float)
  | none
  deriving Repr

def Measure.toFloat? : Measure → Option Float
  | count n => some (Float.ofNat n)
  | integer i => some (Float.ofInt i)
  | single s => some s.toFloat
  | double x => some x
  | none => Option.none

def Measure.ratio (numerator denominator : Measure) : Float :=
  Arithmetic.ratio (numerator.toFloat?.getD 0) (denominator.toFloat?.getD 0)

structure Batch where
  index : Nat
  predictions : Tensor Int
  targets : Tensor Int
  scores : Option (Matrix Score)
  loss : Option Float

inductive ContextValue where
  /-- The first axis runs over the examples. -/
  | tensor (t : Tensor Float)
  | sequence (values : List Json)
  /-- Belongs to the batch, never to an example. -/
  | scalar (value : Json)

/-- A tensor entry; what is not finite has no number. -/
def entryJson (x : Float) : Json := if x.isFinite then .real x else .null

/-- Entries in row-major order, nested along the shape. -/
def nested : List Nat → List Float → Json
  | [], data => (data.head?.map entryJson).getD .null
  | n :: shape, data => .array ((pieces (volume shape) n data).map (nested shape))

namespace ContextValue

/-- One value for each example; none for scalars and tensors of rank zero. -/
def perExample : ContextValue → Option (List Json)
  | tensor t =>
    match t.shape with
    | [] => none
    | n :: shape => some ((pieces (volume shape) n t.data).map (nested shape))
  | sequence values => some values
  | scalar _ => none

def ofStrings (xs : List String) : ContextValue := .sequence (xs.map .string)

end ContextValue

/-- A sequence produced on demand, of which the next element may have been looked at. -/
structure Stream (α : Type) where
  ahead : Option α
  rest : List α

namespace Stream

variable {α : Type}

def ofList (xs : List α) : Stream α := ⟨none, xs⟩

def toList (s : Stream α) : List α := s.ahead.toList ++ s.rest

def peek (s : Stream α) : Option α × Stream α :=
  match s.ahead, s.rest with
  | some x, _ => (some x, s)
  | none, [] => (none, s)
  | none, x :: rest => (some x, ⟨some x, rest⟩)

def next (s : Stream α) : Option α × Stream α :=
  match s.ahead, s.rest with
  | some x, rest => (some x, ⟨none, rest⟩)
  | none, [] => (none, s)
  | none, x :: rest => (some x, ⟨none, rest⟩)

def debugText : String := "LazyModelInput \x7b .. \x7d"

end Stream

inductive ModelInput where
  | ready (shapes : List (List Nat))
  | stream (shapes : Stream (List Nat))

namespace ModelInput

def toList : ModelInput → List (List Nat)
  | ready shapes => shapes
  | stream shapes => shapes.toList

def batchSize : ModelInput → Option Nat × ModelInput
  | ready shapes => (shapes.head?.bind (·.head?), ready shapes)
  | stream shapes =>
    let (first, left) := shapes.peek
    (first.bind (·.head?), stream left)

end ModelInput

end EvalReport
