import EvalReport.Decimal.Binary

/-! Scores: single-precision words under two comparisons. Sorting uses the total order
on words, which separates the zeros and places the NaNs; ties and cut-offs use numeric
comparison, to which the zeros are equal and a NaN equals nothing. -/
namespace EvalReport

structure Score where
  bits : UInt32
  deriving DecidableEq, Repr

namespace Score

def magnitude (s : Score) : Nat := s.bits.toNat % 0x80000000

def negative (s : Score) : Bool := 0x80000000 ≤ s.bits.toNat

/-- Past the word of infinity there are only NaNs. -/
def isNaN (s : Score) : Bool := 0x7f800000 < s.magnitude

/-- The place of a score in the total order: words with the sign bit run backwards and
stand below all others. -/
def place (s : Score) : Int :=
  if s.negative then -1 - (s.magnitude : Int) else s.magnitude

/-- For numbers, the words ordered as the numbers they stand for; both zeros at `0`. -/
def level (s : Score) : Int :=
  if s.negative then -(s.magnitude : Int) else s.magnitude

def same (a b : Score) : Bool := !a.isNaN && !b.isNaN && a.level == b.level

def below (a b : Score) : Bool := !a.isNaN && !b.isNaN && a.level < b.level

/-- The lesser of two scores; a NaN gives way to the other, and of two equal ones the second
is taken. -/
def lesser (a b : Score) : Score :=
  if a.isNaN || b.below a || b.same a then b else a

def binary (s : Score) : Binary := Binary.decode Binary.binary32 s.bits.toNat

/-- The same number as a double-precision word; a NaN keeps its sign and payload. -/
def wideWord (s : Score) : Nat :=
  let sign := if s.negative then Nat.pow 2 63 else 0
  let biased := s.magnitude / Nat.pow 2 23
  let fraction := s.magnitude % Nat.pow 2 23
  let word (biased fraction : Nat) := sign + biased * Nat.pow 2 52 + fraction
  if biased = 255 then
    word 2047 (fraction * Nat.pow 2 29)
  else if biased ≠ 0 then
    word (biased + 896) (fraction * Nat.pow 2 29)
  else if fraction ≠ 0 then
    let top := Nat.log2 fraction
    word (top + 874) ((fraction - Nat.pow 2 top) * Nat.pow 2 (52 - top))
  else sign

def toFloat (s : Score) : Float := Float.ofBits (UInt64.ofNat s.wideWord)

def ofFloat (x : Float) : Score := ⟨x.toFloat32.toBits⟩

def ofInt (i : Int) : Score := ⟨(Float32.ofInt i).toBits⟩

end Score

end EvalReport
