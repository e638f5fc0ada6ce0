import EvalReport.Decimal.Layout
import EvalReport.Text.Quoted

/-! Writing TOML: one pair a line, and for each string the plainest of four forms that
can hold it. -/
namespace EvalReport.Toml

inductive Value where
  | string (s : String)
  | integer (i : Int)
  | float (x : Float)
  | boolean (b : Bool)

inductive Form where
  | basic
  | literal
  | basicLines
  | literalLines
  deriving DecidableEq, Repr

def longestRun (c : Char) (here : Nat) : List Char → Nat
  | [] => here
  | x :: xs => if x = c then longestRun c (here + 1) xs else max here (longestRun c 0 xs)

/-- Controls that cannot stand in a string as they are; a tab and a line end can. -/
def isControl (c : Char) : Bool :=
  (c.toNat < 0x20 && c ≠ '\t' && c ≠ '\n') || c.toNat = 0x7f

def Form.choose (cs : List Char) : Form :=
  let controls := cs.any isControl
  let backslash := cs.contains '\\'
  let broken := cs.contains '\n'
  let double := longestRun '"' 0 cs
  let single := longestRun (Char.ofNat 39) 0 cs
  if !controls && !backslash && double = 0 && !broken then basic
  else if !controls && single = 0 && !broken then literal
  else if !controls && !backslash && double ≤ 2 then basicLines
  else if !controls && single ≤ 2 then literalLines
  else if broken then basicLines
  else basic

def upperHex (c : Char) : Char := if 'a' ≤ c then c.toUpper else c

def escapedChar (several : Bool) (c : Char) : List Char :=
  match c with
  | '\x08' => ['\\', 'b']
  | '\t' => ['\\', 't']
  | '\n' => if several then ['\n'] else ['\\', 'n']
  | '\x0c' => ['\\', 'f']
  | '\r' => ['\\', 'r']
  | '\\' => ['\\', '\\']
  | c =>
    if c.toNat < 0x20 || c.toNat = 0x7f then
      ['\\', 'u'] ++ (Text.hexPadded 4 c.toNat).map upperHex
    else [c]

/-- Of a run of double quotes, at most `free` stand as they are; the next is escaped and
begins a new run. -/
def escaped (several : Bool) (free : Nat) (run : Nat) : List Char → List Char
  | [] => []
  | c :: rest =>
    if c = '"' then
      if run < free then '"' :: escaped several free (run + 1) rest
      else '\\' :: '"' :: escaped several free 0 rest
    else escapedChar several c ++ escaped several free 0 rest

/-- A text with line ends starts on a line of its own. -/
def opened (cs : List Char) : List Char := if cs.contains '\n' then '\n' :: cs else cs

def tripled (c : Char) : List Char := [c, c, c]

def stringChars (cs : List Char) : List Char :=
  let apostrophe := Char.ofNat 39
  match Form.choose cs with
  | .basic => '"' :: (escaped false 0 0 cs ++ ['"'])
  | .literal => apostrophe :: (cs ++ [apostrophe])
  | .basicLines =>
    tripled '"' ++ (if cs.contains '\n' then ['\n'] else []) ++ escaped true 2 0 cs ++ tripled '"'
  | .literalLines => tripled apostrophe ++ opened cs ++ tripled apostrophe

def floatLayout : Decimal.Layout := ⟨fun _ => true, true, .up, "nan", "inf", "-inf"⟩

def Value.chars : Value → List Char
  | string s => stringChars s.toList
  | integer i => Decimal.signed i
  | float x => floatLayout.chars (binaryOfFloat x)
  | boolean true => ['t', 'r', 'u', 'e']
  | boolean false => ['f', 'a', 'l', 's', 'e']

def arrayChars : List Value → List Char
  | [] => ['[', ']']
  | [x] => '[' :: (x.chars ++ [']'])
  | xs =>
    ['[', '\n'] ++ xs.flatMap (fun x => List.replicate 4 ' ' ++ x.chars ++ [',', '\n']) ++ [']']

def pairChars (key : String) (written : List Char) : List Char :=
  key.toList ++ ([' ', '=', ' '] ++ written ++ ['\n'])

end EvalReport.Toml
