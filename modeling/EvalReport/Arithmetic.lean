import EvalReport.Score

/-! The arithmetic in which metrics are computed. Reports run on binary64; the same
definitions can be read in any other carrier of these operations, exact fractions included. -/
namespace EvalReport

class Arithmetic (α : Type) extends Add α, Sub α, Mul α, Div α where
  ofCount : Nat → α
  ofScore : Score → α
  sqrt : α → α
  isZero : α → Bool
  below : α → α → Bool

namespace Arithmetic

instance : Arithmetic Float where
  ofCount := Float.ofNat
  ofScore := Score.toFloat
  sqrt := Float.sqrt
  isZero x := x == 0
  below x y := x < y

variable {α : Type} [Arithmetic α]

def zero : α := ofCount 0

def ratio (numerator denominator : α) : α :=
  if isZero denominator then zero else numerator / denominator

def share (part whole : Nat) : α := ratio (ofCount part) (ofCount whole)

def harmonic (precision recallRate : α) : α :=
  ratio (ofCount 2 * precision * recallRate) (precision + recallRate)

def mean? : List α → Option α
  | [] => none
  | x :: xs => some (xs.foldl (· + ·) x / ofCount (xs.length + 1))

end Arithmetic

end EvalReport
