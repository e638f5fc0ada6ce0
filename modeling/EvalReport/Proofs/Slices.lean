import EvalReport.Proofs.Decoding
import EvalReport.Batch

/-! Slices along the first axis. A slice holds a window of the rows, so whatever reads a tensor
row by row reads two slices side by side as it reads the slice over both. Windows are cut off at
the end of the axis; a tensor of rank zero has no axis and stays whole. -/
namespace EvalReport

section Windows

variable {α β : Type}

def window (start count : Nat) (xs : List α) : List α := (xs.drop start).take count

theorem windowSplit (start a b : Nat) (xs : List α) :
    window start (a + b) xs = window start a xs ++ window (start + a) b xs := by
  simp [window, List.take_add, List.drop_drop]

theorem windowWhole (xs : List α) : window 0 xs.length xs = xs := by
  simp [window]

theorem windowLength (start count : Nat) (xs : List α) :
    (window start count xs).length = min count (xs.length - start) := by
  simp [window]

theorem windowMap (start count : Nat) (f : α → β) (xs : List α) :
    window start count (xs.map f) = (window start count xs).map f := by
  simp [window]

theorem windowZip (start count : Nat) (xs : List α) (ys : List β) :
    (window start count xs).zip (window start count ys) = window start count (xs.zip ys) := by
  simp [window, List.zip, List.take_zipWith, List.drop_zipWith]

theorem piecesDrop (width start n : Nat) (xs : List α) :
    pieces width (n - start) (xs.drop (start * width)) = (pieces width n xs).drop start := by
  induction start generalizing n xs with
  | zero => simp
  | succ start ih =>
    cases n with
    | zero => simp [pieces]
    | succ n =>
      have shifted : xs.drop ((start + 1) * width) = (xs.drop width).drop (start * width) := by
        rw [List.drop_drop, Nat.succ_mul, Nat.add_comm]
      rw [shifted, Nat.add_sub_add_right, ih]
      rfl

theorem piecesTake (width count n : Nat) (xs : List α) :
    pieces width (min count n) (xs.take (count * width)) = (pieces width n xs).take count := by
  induction count generalizing n xs with
  | zero => simp [pieces]
  | succ count ih =>
    cases n with
    | zero => simp [pieces]
    | succ n =>
      have wide : width ≤ (count + 1) * width := Nat.le_mul_of_pos_left width count.succ_pos
      have first : (xs.take ((count + 1) * width)).take width = xs.take width := by
        rw [List.take_take, Nat.min_eq_left wide]
      have rest : (xs.take ((count + 1) * width)).drop width =
          (xs.drop width).take (count * width) := by
        rw [List.drop_take, Nat.succ_mul, Nat.add_sub_cancel]
      rw [Nat.add_min_add_right]
      simp only [pieces, List.take_succ_cons]
      rw [first, rest, ih]

theorem piecesWindow (width start count n : Nat) (xs : List α) :
    pieces width (min count (n - start)) (window (start * width) (count * width) xs) =
      window start count (pieces width n xs) := by
  rw [window, piecesTake, piecesDrop, window]

end Windows

theorem sliceFull {α : Type} {n : Nat} {rest : List Nat} {data : List α}
    (full : data.length = volume (n :: rest)) (start count : Nat) :
    (window (start * volume rest) (count * volume rest) data).length =
      volume (min count (n - start) :: rest) := by
  have whole : data.length = n * volume rest := full
  have sliced : volume (min count (n - start) :: rest) = min count (n - start) * volume rest := rfl
  rw [windowLength, whole, sliced, ← Nat.sub_mul, Nat.mul_min_mul_right]

def Tensor.slice {α : Type} (start count : Nat) (t : Tensor α) : Tensor α :=
  match same : t.shape with
  | [] => t
  | n :: rest =>
    ⟨min count (n - start) :: rest, window (start * volume rest) (count * volume rest) t.data,
      sliceFull (same ▸ t.full) start count⟩

def Matrix.slice {α : Type} (start count : Nat) (m : Matrix α) : Matrix α :=
  ⟨m.width, window start count m.rows, fun row member =>
    m.even row (List.mem_of_mem_drop (List.mem_of_mem_take member))⟩

def ContextValue.slice (start count : Nat) : ContextValue → ContextValue
  | tensor t => .tensor (t.slice start count)
  | sequence values => .sequence (window start count values)
  | scalar value => .scalar value

/-! ### What is read of a slice -/

namespace Tensor

variable {α : Type}

theorem ext {t u : Tensor α} (shapes : t.shape = u.shape) (entries : t.data = u.data) : t = u := by
  cases t
  cases u
  cases shapes
  cases entries
  rfl

theorem sliceAxis (start count : Nat) (t : Tensor α) :
    (t.slice start count).shape.head? = t.shape.head?.map fun n => min count (n - start) := by
  obtain ⟨shape, data, full⟩ := t
  cases shape with
  | nil => rfl
  | cons n rest => rfl

theorem sliceWhole {t : Tensor α} {n : Nat} (axis : ∀ m ∈ t.shape.head?, m = n) :
    t.slice 0 n = t := by
  obtain ⟨shape, data, full⟩ := t
  cases shape with
  | nil => rfl
  | cons m rest =>
    obtain rfl : m = n := axis m rfl
    have whole : data.length = m * volume rest := full
    apply ext
    · simp [slice]
    · simp [slice, window, ← whole]

theorem vectorSlice (start count : Nat) (t : Tensor α) :
    (t.slice start count).vector? = t.vector?.map (window start count) := by
  obtain ⟨shape, data, full⟩ := t
  cases shape with
  | nil => rfl
  | cons n rest =>
    cases rest with
    | nil => simp [slice, vector?, volume]
    | cons m rest => rfl

theorem matrixSlice (start count : Nat) (t : Tensor α) :
    (t.slice start count).matrix? = t.matrix?.map (Matrix.slice start count) := by
  obtain ⟨shape, data, full⟩ := t
  cases shape with
  | nil => rfl
  | cons n rest =>
    cases rest with
    | nil => rfl
    | cons width rest =>
      cases rest with
      | nil => simp [slice, matrix?, Matrix.slice, volume, piecesWindow]
      | cons m rest => rfl

theorem vectorAxis {t : Tensor α} {xs : List α} (read : t.vector? = some xs) :
    t.shape.head? = some xs.length := by
  obtain ⟨shape, data, full⟩ := t
  cases shape with
  | nil => contradiction
  | cons n rest =>
    cases rest with
    | nil =>
      obtain rfl : data = xs := Option.some.inj read
      simpa [volume] using full.symm
    | cons m rest => contradiction

theorem matrixAxis {t : Tensor α} {m : Matrix α} (read : t.matrix? = some m) :
    t.shape.head? = some m.rows.length := by
  obtain ⟨shape, data, full⟩ := t
  cases shape with
  | nil => contradiction
  | cons n rest =>
    cases rest with
    | nil => contradiction
    | cons width rest =>
      cases rest with
      | nil =>
        obtain rfl := Option.some.inj read
        simp [piecesLength]
      | cons k rest => contradiction

end Tensor

theorem perExampleSlice (start count : Nat) (v : ContextValue) :
    (v.slice start count).perExample = v.perExample.map (window start count) := by
  cases v with
  | tensor t =>
    obtain ⟨shape, data, full⟩ := t
    cases shape with
    | nil => rfl
    | cons n rest => simp [ContextValue.slice, Tensor.slice, ContextValue.perExample,
        piecesWindow, windowMap]
  | sequence values => rfl
  | scalar value => rfl

end EvalReport
