/-! Dense tensors in row-major order. -/
namespace EvalReport

def volume (shape : List Nat) : Nat := shape.foldr (· * ·) 1

structure Tensor (α : Type) where
  shape : List Nat
  data : List α
  full : data.length = volume shape

structure Matrix (α : Type) where
  width : Nat
  rows : List (List α)
  even : ∀ row ∈ rows, row.length = width

def pieces {α : Type} (width : Nat) : Nat → List α → List (List α)
  | 0, _ => []
  | count + 1, xs => xs.take width :: pieces width count (xs.drop width)

theorem piecesLength {α : Type} (width count : Nat) (xs : List α) :
    (pieces width count xs).length = count := by
  induction count generalizing xs with
  | zero => rfl
  | succ count ih => simp [pieces, ih]

theorem piecesWidth {α : Type} {width count : Nat} {xs : List α}
    (full : xs.length = count * width) : ∀ row ∈ pieces width count xs, row.length = width := by
  induction count generalizing xs with
  | zero => simp [pieces]
  | succ count ih =>
    intro row member
    rw [Nat.succ_mul] at full
    rcases List.mem_cons.mp member with rfl | rest
    · simp [full]
    · exact ih (by simp [full]) row rest

namespace Tensor

variable {α : Type}

def rank (t : Tensor α) : Nat := t.shape.length

def vector? (t : Tensor α) : Option (List α) :=
  match t.shape with
  | [_] => some t.data
  | _ => none

def matrix? (t : Tensor α) : Option (Matrix α) :=
  match same : t.shape with
  | [height, width] =>
    some ⟨width, pieces width height t.data, piecesWidth (by
      rw [t.full, same]; simp [volume])⟩
  | _ => none

def ofData? (shape : List Nat) (data : List α) : Option (Tensor α) :=
  if full : data.length = volume shape then some ⟨shape, data, full⟩ else none

end Tensor

end EvalReport
