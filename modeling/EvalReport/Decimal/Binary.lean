/-! Binary floating-point words, read as exact numbers. A finite word stands for
`significand * 2 ^ exponent`; nothing here rounds. -/
namespace EvalReport

/-- What a word of a binary interchange format stands for. `narrowBelow` marks the
values whose lower neighbour is half as far away as the upper one. -/
inductive Binary where
  | nan
  | infinite (negative : Bool)
  | finite (negative : Bool) (significand : Nat) (exponent : Int) (narrowBelow : Bool)
  deriving DecidableEq, Repr

namespace Binary

structure Format where
  fractionBits : Nat
  exponentBits : Nat
  deriving DecidableEq, Repr

def binary32 : Format := ⟨23, 8⟩
def binary64 : Format := ⟨52, 11⟩

def Format.lowestExponent (f : Format) : Int :=
  2 - (Nat.pow 2 (f.exponentBits - 1) : Int) - f.fractionBits

def decode (f : Format) (word : Nat) : Binary :=
  let hidden := Nat.pow 2 f.fractionBits
  let exponents := Nat.pow 2 f.exponentBits
  let fraction := word % hidden
  let biased := word / hidden % exponents
  let negative := word / (hidden * exponents) % 2 == 1
  if biased = exponents - 1 then
    if fraction = 0 then infinite negative else nan
  else if biased = 0 then
    finite negative fraction f.lowestExponent false
  else
    finite negative (hidden + fraction) (f.lowestExponent + (biased - 1))
      (fraction == 0 && 1 < biased)

def isNegative : Binary → Bool
  | nan => false
  | infinite negative => negative
  | finite negative .. => negative

end Binary

def binaryOfFloat (x : Float) : Binary := Binary.decode Binary.binary64 x.toBits.toNat

end EvalReport
