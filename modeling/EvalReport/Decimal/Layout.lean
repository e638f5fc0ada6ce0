import EvalReport.Decimal.Shortest

/-! Texts of binary values: shortest digits under a layout, and a fixed number of places. -/
namespace EvalReport.Decimal

structure Layout where
  /-- The decimal exponents of the first digit that are written without an exponent part. -/
  positional : Int → Bool
  pointed : Bool
  tie : Tie
  nan : String
  infinity : String
  negativeInfinity : String

def zeros (n : Nat) : List Char := List.replicate n '0'

def exponentMark (e : Int) : List Char :=
  'e' :: (if e < 0 then '-' else '+') :: digits e.natAbs

def Layout.magnitude (l : Layout) (s : Scientific) : List Char :=
  let ds := digits s.coefficient
  let e : Int := ds.length - 1 + s.exponent
  if l.positional e then
    if 0 ≤ s.exponent then
      ds ++ zeros s.exponent.toNat ++ (if l.pointed then ['.', '0'] else [])
    else if 0 ≤ e then
      ds.take (e.toNat + 1) ++ '.' :: ds.drop (e.toNat + 1)
    else
      '0' :: '.' :: (zeros (-e - 1).toNat ++ ds)
  else
    match ds with
    | [] => []
    | [d] => d :: exponentMark e
    | d :: rest => d :: '.' :: (rest ++ exponentMark e)

def Layout.chars (l : Layout) : Binary → List Char
  | .nan => l.nan.toList
  | .infinite negative => (if negative then l.negativeInfinity else l.infinity).toList
  | .finite negative m q narrowBelow =>
    let body := l.magnitude (shortest l.tie m q narrowBelow)
    if negative then '-' :: body else body

def Layout.text (l : Layout) (b : Binary) : String := String.ofList (l.chars b)

def roundHalfEven (n d : Nat) : Nat :=
  let quotient := n / d
  let rest := n % d
  if 2 * rest < d then quotient
  else if d < 2 * rest then quotient + 1
  else if quotient % 2 = 0 then quotient else quotient + 1

/-- The exact value rounded half to even to `places` decimals; the sign is always kept. -/
def fixed (places : Nat) : Binary → String
  | .nan => "NaN"
  | .infinite negative => if negative then "-inf" else "inf"
  | .finite negative m q _ =>
    let unit := pow10 places
    let scaled := roundHalfEven (m * pow2 q * unit) (pow2 (-q))
    let fraction := digits (scaled % unit)
    let body := digits (scaled / unit) ++
      (if places = 0 then [] else '.' :: (zeros (places - fraction.length) ++ fraction))
    String.ofList (if negative then '-' :: body else body)

def plain : Layout := ⟨fun _ => true, false, .up, "NaN", "inf", "-inf"⟩

end EvalReport.Decimal
