import EvalReport.Decimal.Binary
import EvalReport.Decimal.Digits

/-! The decimal with the fewest digits that still reads back as a given binary value.

The reals that round to `m * 2 ^ q` form an interval around it, ends included exactly
when `m` is even. The grids of one, two, three, … digits are tried in turn on the two
multiples next to the value; the first grid with a hit wins, and of two hits the nearer. -/
namespace EvalReport.Decimal

inductive Tie where
  | toEven
  | up
  deriving DecidableEq, Repr

/-- `coefficient * 10 ^ exponent`, with no trailing zero in a nonzero coefficient. -/
structure Scientific where
  coefficient : Nat
  exponent : Int
  deriving DecidableEq, Repr

def pow2 (e : Int) : Nat := Nat.pow 2 e.toNat
def pow10 (e : Int) : Nat := Nat.pow 10 e.toNat

/-- `floor (log10 (n / d))` for positive `n` and `d`. -/
def leading (n d : Nat) : Int :=
  if d ≤ n then (digits (n / d)).length - 1 else -((digits ((d - 1) / n)).length : Int)

def dropZeros : Nat → Scientific → Scientific
  | 0, s => s
  | fuel + 1, s =>
    if s.coefficient ≠ 0 ∧ s.coefficient % 10 = 0 then
      dropZeros fuel ⟨s.coefficient / 10, s.exponent + 1⟩
    else s

/-- Whether a distance is at most `gap` quarters of the last place of `m`; all of them only if
`m` is even. -/
def within (m unit distance gap : Nat) : Bool :=
  4 * distance < gap * unit || (4 * distance == gap * unit && m % 2 == 0)

/-- Of `below` and the number after it those that are near enough, of both the nearer one. The
`scale` lies between them and `rest` behind the first. -/
def pick (tie : Tie) (below rest scale : Nat) (low high : Bool) : Option Nat :=
  if low && high then
    if 2 * rest < scale then some below
    else if scale < 2 * rest then some (below + 1)
    else match tie with
      | .up => some (below + 1)
      | .toEven => some (if below % 2 = 0 then below else below + 1)
  else if low then some below
  else if high then some (below + 1)
  else none

/-- The multiple of `10 ^ p` next to `m * 2 ^ q` that reads back as it, if there is one. -/
def onGrid (tie : Tie) (m : Nat) (q : Int) (narrowBelow : Bool) (p : Int) : Option Nat :=
  let unit := pow2 q * pow10 (-p)
  let scale := pow2 (-q) * pow10 p
  let rest := m * unit % scale
  pick tie (m * unit / scale) rest scale
    (within m unit rest (if narrowBelow then 1 else 2)) (within m unit (scale - rest) 2)

/-- Seventeen digits tell any two binary64 values apart. -/
def mostDigits : Nat := 17

def shortest (tie : Tie) (m : Nat) (q : Int) (narrowBelow : Bool) : Scientific :=
  if m = 0 then ⟨0, 0⟩ else
    let top := leading (m * pow2 q) (pow2 (-q))
    let hit := (List.range mostDigits).findSome? fun (n : Nat) =>
      let p := top - n
      (onGrid tie m q narrowBelow p).map fun c => (⟨c, p⟩ : Scientific)
    dropZeros mostDigits (hit.getD ⟨m * pow2 q, 0⟩)

end EvalReport.Decimal
