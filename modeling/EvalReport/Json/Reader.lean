import EvalReport.Document

/-! Reading JSON text. The notation is strict: four blanks, no leading zeros, no raw
controls in strings, nothing after the value. -/
namespace EvalReport.Json

def isBlank (c : Char) : Bool := c == ' ' || c == '\n' || c == '\t' || c == '\r'

def skipBlanks (cs : List Char) : List Char := cs.dropWhile isBlank

/-! ### Numbers -/

structure Literal where
  negative : Bool
  whole : List Char
  fraction : Option (List Char)
  power : Option Int

def someDigits (cs : List Char) : Option (List Char × List Char) :=
  match cs.takeWhile Decimal.isDigit with
  | [] => none
  | ds => some (ds, cs.dropWhile Decimal.isDigit)

def wholePart : List Char → Option (List Char × List Char)
  | '0' :: rest => some (['0'], rest)
  | cs => someDigits cs

def fractionPart : List Char → Option (Option (List Char) × List Char)
  | '.' :: rest => (someDigits rest).map fun (ds, rest) => (some ds, rest)
  | cs => some (none, cs)

def powerPart : List Char → Option (Option Int × List Char)
  | e :: rest =>
    if e == 'e' || e == 'E' then
      match rest with
      | '-' :: rest =>
        (someDigits rest).map fun (ds, rest) => (some (-(Decimal.ofDigits ds : Int)), rest)
      | '+' :: rest =>
        (someDigits rest).map fun (ds, rest) => (some (Decimal.ofDigits ds : Int), rest)
      | rest =>
        (someDigits rest).map fun (ds, rest) => (some (Decimal.ofDigits ds : Int), rest)
    else some (none, e :: rest)
  | [] => some (none, [])

def magnitudePart (negative : Bool) (cs : List Char) : Option (Literal × List Char) := do
  let (whole, cs) ← wholePart cs
  let (fraction, cs) ← fractionPart cs
  let (power, cs) ← powerPart cs
  some (⟨negative, whole, fraction, power⟩, cs)

def literal : List Char → Option (Literal × List Char)
  | '-' :: cs => magnitudePart true cs
  | cs => magnitudePart false cs

/-- Takes digits in as long as the number they make fits in 64 bits; the rest is left. -/
def gather (n : Nat) : List Char → Nat × List Char
  | [] => (n, [])
  | d :: ds =>
    let next := 10 * n + Decimal.digitValue d
    if next < 0x10000000000000000 then gather next ds else (n, d :: ds)

def tenTo (n : Nat) : Float := Float.ofScientific 1 false n

/-- `n * 10 ^ e`, worked out in doubles by one product or by quotients; none past the
largest double. -/
def scaled (n : Nat) (e : Int) : Option Float :=
  let x := Float.ofNat n
  if n = 0 then some x
  else if 0 ≤ e then
    if e ≤ 308 then
      let y := x * tenTo e.toNat
      if y.isInf then none else some y
    else none
  else
    let d := (-e).toNat
    if d ≤ 308 then some (x / tenTo d)
    else if d ≤ 616 then some (x / tenTo 308 / tenTo (d - 308))
    else some (Float.ofNat 0)

/-- An integer literal that fits in 64 bits is an integer, except a negative zero; any
other number is a double. -/
def Literal.value (l : Literal) : Option Number :=
  let (head, spare) := gather 0 l.whole
  let sign (x : Float) : Float := if l.negative then -x else x
  match l.fraction, l.power, spare with
  | none, none, [] =>
    if !l.negative then some (.integer head)
    else if head = 0 || 0x8000000000000000 < head then some (.real (sign (Float.ofNat head)))
    else some (.integer (-head))
  | fraction, power, spare =>
    let places := fraction.getD []
    let (n, left) := gather head places
    let e : Int := spare.length - (places.length - left.length : Nat) + power.getD 0
    (scaled n e).map fun x => .real (sign x)

/-! ### Strings -/

def hexValue (c : Char) : Option Nat :=
  if '0' ≤ c && c ≤ '9' then some (c.toNat - 48)
  else if 'a' ≤ c && c ≤ 'f' then some (c.toNat - 87)
  else if 'A' ≤ c && c ≤ 'F' then some (c.toNat - 55)
  else none

def hexQuad (a b c d : Char) : Option Nat := do
  some ((((← hexValue a) * 16 + (← hexValue b)) * 16 + (← hexValue c)) * 16 + (← hexValue d))

def shortEscape : Char → Option Char
  | '"' => some '"'
  | '\\' => some '\\'
  | '/' => some '/'
  | 'b' => some '\x08'
  | 'f' => some '\x0c'
  | 'n' => some '\n'
  | 'r' => some '\r'
  | 't' => some '\t'
  | _ => none

def isHighHalf (n : Nat) : Bool := 0xd800 ≤ n && n < 0xdc00
def isLowHalf (n : Nat) : Bool := 0xdc00 ≤ n && n < 0xe000
def joinHalves (high low : Nat) : Char :=
  Char.ofNat (0x10000 + (high - 0xd800) * 0x400 + (low - 0xdc00))

inductive Piece where
  | close
  | char (c : Char)
  | half (n : Nat)

def piece : List Char → Option (Piece × List Char)
  | '"' :: rest => some (.close, rest)
  | '\\' :: 'u' :: a :: b :: c :: d :: rest => do
    let n ← hexQuad a b c d
    some (if isHighHalf n || isLowHalf n then .half n else .char (Char.ofNat n), rest)
  | '\\' :: c :: rest => (shortEscape c).map fun c => (.char c, rest)
  | c :: rest => if c.toNat < 0x20 then none else some (.char c, rest)
  | [] => none

/-- The rest of a string, its opening quote read. The characters are missing if half of a
surrogate pair stands alone. `open?` is a high half still waiting for its low one. -/
def body : Nat → Option Nat → List Char → Option (Option (List Char) × List Char)
  | 0, _, _ => none
  | fuel + 1, open?, cs => do
    let (p, rest) ← piece cs
    match p, open? with
    | .close, none => some (some [], rest)
    | .close, some _ => some (none, rest)
    | .char c, none => (body fuel none rest).map fun (s, rest) => (s.map (c :: ·), rest)
    | .char _, some _ => (body fuel none rest).map fun (_, rest) => (none, rest)
    | .half n, none =>
      if isHighHalf n then body fuel (some n) rest
      else (body fuel none rest).map fun (_, rest) => (none, rest)
    | .half n, some high =>
      if isLowHalf n then
        (body fuel none rest).map fun (s, rest) => (s.map (joinHalves high n :: ·), rest)
      else (body fuel none rest).map fun (_, rest) => (none, rest)

def stringBody (fuel : Nat) (cs : List Char) : Option (Option String × List Char) :=
  (body fuel none cs).map fun (s, rest) => (s.map String.ofList, rest)

/-! ### Values -/

mutual

def value : Nat → List Char → Option (Document × List Char)
  | 0, _ => none
  | fuel + 1, cs =>
    match skipBlanks cs with
    | 'n' :: 'u' :: 'l' :: 'l' :: rest => some (.null, rest)
    | 't' :: 'r' :: 'u' :: 'e' :: rest => some (.flag true, rest)
    | 'f' :: 'a' :: 'l' :: 's' :: 'e' :: rest => some (.flag false, rest)
    | '"' :: rest => (stringBody fuel rest).map fun (s, rest) => (.text s, rest)
    | '[' :: rest =>
      match skipBlanks rest with
      | ']' :: rest => some (.list [], rest)
      | rest => (items fuel rest).map fun (xs, rest) => (.list xs, rest)
    | '\x7b' :: rest =>
      match skipBlanks rest with
      | '\x7d' :: rest => some (.record [], rest)
      | rest => (members fuel rest).map fun (xs, rest) => (.record xs, rest)
    | rest => (literal rest).map fun (l, rest) => (.number l.value, rest)

def items : Nat → List Char → Option (List Document × List Char)
  | 0, _ => none
  | fuel + 1, cs => do
    let (x, rest) ← value fuel cs
    match skipBlanks rest with
    | ']' :: rest => some ([x], rest)
    | ',' :: rest => (items fuel rest).map fun (xs, rest) => (x :: xs, rest)
    | _ => none

def members : Nat → List Char → Option (List (Option String × Document) × List Char)
  | 0, _ => none
  | fuel + 1, cs =>
    match skipBlanks cs with
    | '"' :: rest => do
      let (key, rest) ← stringBody fuel rest
      match skipBlanks rest with
      | ':' :: rest => do
        let (x, rest) ← value fuel rest
        match skipBlanks rest with
        | '\x7d' :: rest => some ([(key, x)], rest)
        | ',' :: rest => (members fuel rest).map fun (xs, rest) => ((key, x) :: xs, rest)
        | _ => none
      | _ => none
    | _ => none

end

def readChars (cs : List Char) : Option Document := do
  let (d, rest) ← value (2 * cs.length + 2) cs
  match skipBlanks rest with
  | [] => some d
  | _ => none

def read (text : String) : Option Document := readChars text.toList

end EvalReport.Json
