import EvalReport.Toml.Tree

/-! Reading TOML 1.0 documents. -/
namespace EvalReport.Toml

/-! ### Blanks and line ends -/

def isSpace (c : Char) : Bool := c == ' ' || c == '\t'

def skipSpaces (cs : List Char) : List Char := cs.dropWhile isSpace

def newline : List Char → Option (List Char)
  | '\n' :: rest => some rest
  | '\r' :: '\n' :: rest => some rest
  | _ => none

/-- Characters of a comment, and of strings apart from their delimiters: no control but the
tab. -/
def isText (c : Char) : Bool := c == '\t' || (0x20 ≤ c.toNat && c.toNat ≠ 0x7f)

def skipComment : List Char → List Char
  | '#' :: rest => rest.dropWhile isText
  | cs => cs

/-- What may follow on a line: blanks, a comment, and its end. -/
def lineTail (cs : List Char) : Option (List Char) :=
  match skipComment (skipSpaces cs) with
  | [] => some []
  | rest => newline rest

def skipLines : Nat → List Char → List Char
  | 0, cs => cs
  | fuel + 1, cs =>
    let rest := skipSpaces cs
    match newline (skipComment rest) with
    | some rest => skipLines fuel rest
    | none => rest

/-! ### Strings -/

def isHex (c : Char) : Bool :=
  Decimal.isDigit c || ('a' ≤ c && c ≤ 'f') || ('A' ≤ c && c ≤ 'F')

def hexValue (c : Char) : Nat :=
  if c ≤ '9' then c.toNat - 48 else if 'a' ≤ c then c.toNat - 87 else c.toNat - 55

def ofHex (cs : List Char) : Nat := cs.foldl (fun n c => 16 * n + hexValue c) 0

/-- The character of a numbered escape; halves of surrogate pairs are none. -/
def numbered (cs : List Char) : Option Char :=
  let n := ofHex cs
  if cs.all isHex && (n < 0xd800 || (0xdfff < n && n < 0x110000)) then some (Char.ofNat n) else none

def shortEscape : Char → Option Char
  | 'b' => some '\x08'
  | 't' => some '\t'
  | 'n' => some '\n'
  | 'f' => some '\x0c'
  | 'r' => some '\r'
  | '"' => some '"'
  | '\\' => some '\\'
  | _ => none

def escape : List Char → Option (Char × List Char)
  | 'u' :: a :: b :: c :: d :: rest => (numbered [a, b, c, d]).map fun x => (x, rest)
  | 'U' :: a :: b :: c :: d :: e :: f :: g :: h :: rest =>
    (numbered [a, b, c, d, e, f, g, h]).map fun x => (x, rest)
  | c :: rest => (shortEscape c).map fun x => (x, rest)
  | [] => none

def basic : Nat → List Char → Option (List Char × List Char)
  | 0, _ => none
  | _, [] => none
  | fuel + 1, c :: rest =>
    if c = '"' then some ([], rest)
    else if c = '\\' then do
      let (x, rest) ← escape rest
      let (xs, rest) ← basic fuel rest
      some (x :: xs, rest)
    else if isText c then do
      let (xs, rest) ← basic fuel rest
      some (c :: xs, rest)
    else none

def verbatim (quote : Char) : List Char → Option (List Char × List Char)
  | [] => none
  | c :: rest =>
    if c = quote then some ([], rest)
    else if isText c then do
      let (xs, rest) ← verbatim quote rest
      some (c :: xs, rest)
    else none

/-- Three quotes close a text of several lines. Up to two more before them belong to it. -/
def closing (quote : Char) : List Char → Option (List Char × List Char)
  | a :: b :: c :: rest =>
    if a = quote ∧ b = quote ∧ c = quote then
      match rest with
      | d :: e :: more =>
        if d = quote then
          if e = quote then some ([quote, quote], more) else some ([quote], e :: more)
        else some ([], rest)
      | [d] => if d = quote then some ([quote], []) else some ([], rest)
      | [] => some ([], [])
    else none
  | _ => none

def skipBreaks : Nat → List Char → List Char
  | 0, cs => cs
  | fuel + 1, cs =>
    let rest := skipSpaces cs
    match newline rest with
    | some rest => skipBreaks fuel rest
    | none => rest

/-- Behind a backslash at the end of a line, the text goes on at the next character that is
not blank. -/
def joined (cs : List Char) : Option (List Char) :=
  (newline (skipSpaces cs)).map fun rest => skipBreaks rest.length rest

/-- The text of several lines, its opening quotes read; a backslash escapes only between
double quotes. -/
def lines (quote : Char) : Nat → List Char → Option (List Char × List Char)
  | 0, _ => none
  | fuel + 1, cs =>
    match closing quote cs with
    | some found => some found
    | none =>
      match newline cs with
      | some rest => do
        let (xs, rest) ← lines quote fuel rest
        some ('\n' :: xs, rest)
      | none =>
        match cs with
        | [] => none
        | c :: rest =>
          if c = '\\' ∧ quote = '"' then
            match joined rest with
            | some rest => lines quote fuel rest
            | none => do
              let (x, rest) ← escape rest
              let (xs, rest) ← lines quote fuel rest
              some (x :: xs, rest)
          else if isText c then do
            let (xs, rest) ← lines quote fuel rest
            some (c :: xs, rest)
          else none

/-- A line end right behind the opening quotes is not part of the text. -/
def trimmed (cs : List Char) : List Char := (newline cs).getD cs

def apostrophe : Char := Char.ofNat 39

def oneLine (cs : List Char) : Option (List Char × List Char) :=
  match cs with
  | '"' :: rest => basic (rest.length + 1) rest
  | c :: rest => if c = apostrophe then verbatim apostrophe rest else none
  | [] => none

def string (cs : List Char) : Option (List Char × List Char) :=
  match cs with
  | a :: b :: c :: rest =>
    if a = b ∧ b = c ∧ (a = '"' ∨ a = apostrophe) then
      lines a (rest.length + 1) (trimmed rest)
    else oneLine cs
  | _ => oneLine cs

/-! ### Numbers and dates -/

def moreDigits (isDigit : Char → Bool) : List Char → Option (List Char × List Char)
  | [] => some ([], [])
  | '_' :: c :: rest =>
    if isDigit c then (moreDigits isDigit rest).map fun (ds, rest) => (c :: ds, rest) else none
  | c :: rest =>
    if isDigit c then (moreDigits isDigit rest).map fun (ds, rest) => (c :: ds, rest)
    else if c = '_' then none
    else some ([], c :: rest)

def someDigits (isDigit : Char → Bool) : List Char → Option (List Char × List Char)
  | c :: rest =>
    if isDigit c then (moreDigits isDigit rest).map fun (ds, rest) => (c :: ds, rest) else none
  | [] => none

def sign : List Char → Bool × List Char
  | '-' :: rest => (true, rest)
  | '+' :: rest => (false, rest)
  | cs => (false, cs)

def wholePart : List Char → Option (List Char × List Char)
  | '0' :: rest => some (['0'], rest)
  | cs => someDigits Decimal.isDigit cs

def inRange (i : Int) : Option Document :=
  if -0x8000000000000000 ≤ i ∧ i < 0x8000000000000000 then some (.number (some (.integer i)))
  else none

def radix (base : Nat) (isDigit : Char → Bool) (cs : List Char) :
    Option (Document × List Char) := do
  let (ds, rest) ← someDigits isDigit cs
  let d ← inRange ((ds.foldl (fun n c => base * n + hexValue c) 0 : Nat) : Int)
  some (d, rest)

def integer : List Char → Option (Document × List Char)
  | '0' :: 'x' :: rest => radix 16 isHex rest
  | '0' :: 'o' :: rest => radix 8 (fun c => '0' ≤ c && c ≤ '7') rest
  | '0' :: 'b' :: rest => radix 2 (fun c => c == '0' || c == '1') rest
  | cs => do
    let (negative, cs) := sign cs
    let (ds, rest) ← wholePart cs
    let n : Int := Decimal.ofDigits ds
    let d ← inRange (if negative then -n else n)
    some (d, rest)

def nearest (m : Nat) (e : Int) : Float :=
  let top := (Decimal.digits m).length + e
  if m = 0 || top < -400 then 0
  else if 400 < top then Float.ofScientific 1 false 400
  else if 0 ≤ e then Float.ofScientific m false e.toNat
  else Float.ofScientific m true (-e).toNat

def powerPart : List Char → Option (Int × List Char)
  | c :: rest =>
    if c = 'e' ∨ c = 'E' then do
      let (negative, rest) := sign rest
      let (ds, rest) ← someDigits Decimal.isDigit rest
      let n : Int := Decimal.ofDigits ds
      some (if negative then -n else n, rest)
    else none
  | [] => none

/-- A fraction, a power of ten, or both. A positive number past the largest double is
refused. -/
def decimalFloat (cs : List Char) : Option (Document × List Char) := do
  let (negative, cs) := sign cs
  let (whole, cs) ← wholePart cs
  let (places, power, rest) ← match cs with
    | '.' :: rest => do
      let (places, rest) ← someDigits Decimal.isDigit rest
      match powerPart rest with
      | some (power, rest) => some (places, power, rest)
      | none => some (places, 0, rest)
    | cs => do
      let (power, rest) ← powerPart cs
      some ([], power, rest)
  let x := nearest (Decimal.ofDigits (whole ++ places)) (power - places.length)
  let x := if negative then -x else x
  if x.isInf && !negative then none else some (.number (some (.real x)), rest)

def infinity : Float := Float.ofScientific 1 false 400

def specialFloat (cs : List Char) : Option (Document × List Char) :=
  let (negative, cs) := sign cs
  let signed (x : Float) : Document := .number (some (.real (if negative then -x else x)))
  match cs with
  | 'i' :: 'n' :: 'f' :: rest => some (signed infinity, rest)
  | 'n' :: 'a' :: 'n' :: rest => some (signed (infinity - infinity), rest)
  | _ => none

def fixedDigits (n : Nat) (cs : List Char) : Option (Nat × List Char) :=
  let ds := cs.take n
  if ds.length = n ∧ ds.all Decimal.isDigit then some (Decimal.ofDigits ds, cs.drop n) else none

def mark (c : Char) : List Char → Option (List Char)
  | d :: rest => if d = c then some rest else none
  | [] => none

def daysIn (year month : Nat) : Nat :=
  if month = 2 then
    if year % 4 = 0 ∧ (year % 100 ≠ 0 ∨ year % 400 = 0) then 29 else 28
  else if month = 4 ∨ month = 6 ∨ month = 9 ∨ month = 11 then 30
  else 31

def fullDate (cs : List Char) : Option (List Char) := do
  let (year, cs) ← fixedDigits 4 cs
  let cs ← mark '-' cs
  let (month, cs) ← fixedDigits 2 cs
  let cs ← mark '-' cs
  let (day, cs) ← fixedDigits 2 cs
  if 1 ≤ month ∧ month ≤ 12 ∧ 1 ≤ day ∧ day ≤ daysIn year month then some cs else none

def clock (cs : List Char) : Option (List Char) := do
  let (hour, cs) ← fixedDigits 2 cs
  let cs ← mark ':' cs
  let (minute, cs) ← fixedDigits 2 cs
  if hour ≤ 23 ∧ minute ≤ 59 then some cs else none

def time (cs : List Char) : Option (List Char) := do
  let cs ← mark ':' (← clock cs)
  let (second, cs) ← fixedDigits 2 cs
  if second ≤ 60 then
    match cs with
    | '.' :: rest =>
      match rest.takeWhile Decimal.isDigit with
      | [] => some cs
      | _ => some (rest.dropWhile Decimal.isDigit)
    | cs => some cs
  else none

def offset (cs : List Char) : List Char :=
  match cs with
  | c :: rest =>
    if c = 'Z' ∨ c = 'z' then rest
    else if c = '+' ∨ c = '-' then (clock rest).getD cs
    else cs
  | [] => []

def dateTime (cs : List Char) : Option (Document × List Char) :=
  match fullDate cs with
  | some rest =>
    let timed := match rest with
      | c :: more => if c = 'T' ∨ c = 't' ∨ c = ' ' then time more else none
      | [] => none
    match timed with
    | some rest => some (.date, offset rest)
    | none => some (.date, rest)
  | none => (time cs).map fun rest => (.date, rest)

/-! ### Keys and values -/

def isBareKey (c : Char) : Bool :=
  ('a' ≤ c && c ≤ 'z') || ('A' ≤ c && c ≤ 'Z') || Decimal.isDigit c || c == '-' || c == '_'

def simpleKey (cs : List Char) : Option (String × List Char) :=
  match cs.takeWhile isBareKey with
  | [] => (oneLine cs).map fun (key, rest) => (String.ofList key, rest)
  | key => some (String.ofList key, cs.dropWhile isBareKey)

def depthLimit : Nat := 80

def dottedParts : Nat → List Char → Option (List String × List Char)
  | 0, _ => none
  | fuel + 1, cs => do
    let (key, rest) ← simpleKey (skipSpaces cs)
    match skipSpaces rest with
    | '.' :: rest => (dottedParts fuel rest).map fun (path, rest) => (key :: path, rest)
    | rest => some ([key], rest)

def dottedKey (cs : List Char) : Option (List String × String × List Char) := do
  let (parts, rest) ← dottedParts (depthLimit - 1) cs
  let last ← parts.getLast?
  some (parts.dropLast, last, rest)

def scalar (cs : List Char) : Option (Document × List Char) :=
  match cs with
  | 't' :: 'r' :: 'u' :: 'e' :: rest => some (.flag true, rest)
  | 'f' :: 'a' :: 'l' :: 's' :: 'e' :: rest => some (.flag false, rest)
  | c :: _ =>
    if c = '"' ∨ c = apostrophe then
      (string cs).map fun (s, rest) => (.text (some (String.ofList s)), rest)
    else
      dateTime cs <|> decimalFloat cs <|> specialFloat cs <|> integer cs
  | [] => none

mutual

def value : Nat → Nat → List Char → Option (Document × List Char)
  | 0, _, _ => none
  | fuel + 1, depth, cs =>
    match cs with
    | '[' :: rest =>
      if depth ≤ 1 then none
      else (items fuel (depth - 1) (skipLines rest.length rest)).map
        fun (xs, rest) => (.list xs, rest)
    | '\x7b' :: rest =>
      if depth ≤ 1 then none
      else match skipSpaces rest with
        | '\x7d' :: rest => some (.record [], rest)
        | rest => (pairs fuel (depth - 1) rest []).map
            fun (ms, rest) => (.record (memberDocuments ms), rest)
    | cs => scalar cs

def items : Nat → Nat → List Char → Option (List Document × List Char)
  | 0, _, _ => none
  | fuel + 1, depth, cs =>
    match cs with
    | ']' :: rest => some ([], rest)
    | cs => do
      let (x, rest) ← value fuel depth cs
      match skipLines rest.length rest with
      | ']' :: rest => some ([x], rest)
      | ',' :: rest =>
        (items fuel depth (skipLines rest.length rest)).map fun (xs, rest) => (x :: xs, rest)
      | _ => none

def pairs : Nat → Nat → List Char → Members → Option (Members × List Char)
  | 0, _, _, _ => none
  | fuel + 1, depth, cs, ms => do
    let (path, key, rest) ← dottedKey cs
    let rest ← mark '=' rest
    let (x, rest) ← value fuel depth (skipSpaces rest)
    let ms ← enter path key x ms
    match skipSpaces rest with
    | '\x7d' :: rest => some (ms, rest)
    | ',' :: rest => pairs fuel depth rest ms
    | _ => none

end

/-! ### Documents -/

structure State where
  header : List String
  root : Members

def header (s : State) : List Char → Option (State × List Char)
  | '[' :: rest => do
    let (path, key, rest) ← dottedKey rest
    let rest ← mark ']' (← mark ']' rest)
    some (⟨path ++ [key], ← openArray path key s.root⟩, rest)
  | rest => do
    let (path, key, rest) ← dottedKey rest
    let rest ← mark ']' rest
    some (⟨path ++ [key], ← openTable path key s.root⟩, rest)

def keyValue (s : State) (cs : List Char) : Option (State × List Char) := do
  let (path, key, rest) ← dottedKey cs
  let rest ← mark '=' rest
  let (d, rest) ← value (2 * cs.length + 2) depthLimit (skipSpaces rest)
  some ({ s with root := ← enterAt s.header path key d s.root }, rest)

def document : Nat → State → List Char → Option Members
  | 0, _, _ => none
  | fuel + 1, s, cs =>
    match skipSpaces cs with
    | [] => some s.root
    | '[' :: rest => do
      let (s, rest) ← header s rest
      document fuel s (← lineTail rest)
    | rest =>
      match lineTail rest with
      | some rest => document fuel s rest
      | none => do
        let (s, rest) ← keyValue s rest
        document fuel s (← lineTail rest)

/-- A mark of byte order may open the text. -/
def readChars (cs : List Char) : Option Document :=
  let cs := match cs with
    | '\ufeff' :: rest => rest
    | cs => cs
  (document (cs.length + 1) ⟨[], []⟩ cs).map fun ms => .record (memberDocuments ms)

def read (text : String) : Option Document := readChars text.toList

end EvalReport.Toml
