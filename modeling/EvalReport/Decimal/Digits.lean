/-! Decimal numerals without leading zeros. -/
namespace EvalReport.Decimal

def digitChar (d : Nat) : Char := Char.ofNat (48 + d)

def digitValue (c : Char) : Nat := c.toNat - 48

def isDigit (c : Char) : Bool := '0' ≤ c && c ≤ '9'

def digits (n : Nat) : List Char :=
  if n < 10 then [digitChar n] else digits (n / 10) ++ [digitChar (n % 10)]
termination_by n

def ofDigits (cs : List Char) : Nat :=
  cs.foldl (fun n c => 10 * n + digitValue c) 0

def signed (i : Int) : List Char :=
  if i < 0 then '-' :: digits i.natAbs else digits i.natAbs

def natText (n : Nat) : String := String.ofList (digits n)

def intText (i : Int) : String := String.ofList (signed i)

end EvalReport.Decimal
