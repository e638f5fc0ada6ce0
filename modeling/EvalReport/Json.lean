import EvalReport.Decimal.Layout
import EvalReport.Score
import EvalReport.Text.Quoted

/-! JSON values and their two written forms. Members are written in the order in which
they are held; a number that is not finite is written as `null`. -/
namespace EvalReport

inductive Number where
  | integer (i : Int)
  | real (x : Float)
  | single (s : Score)

inductive Json where
  | null
  | bool (b : Bool)
  | number (n : Number)
  | string (s : String)
  | array (items : List Json)
  | object (members : List (String × Json))

instance : Inhabited Json := ⟨.null⟩

namespace Number

/-- Doubles are written out between `0.00001` and just under `10 ^ 16`. -/
def doubleLayout : Decimal.Layout :=
  ⟨fun e => -5 ≤ e && e ≤ 15, true, .toEven, "null", "null", "null"⟩

/-- Singles are written out between `0.000001` and just under `10 ^ 13`. -/
def singleLayout : Decimal.Layout :=
  ⟨fun e => -6 ≤ e && e ≤ 12, true, .toEven, "null", "null", "null"⟩

def chars : Number → List Char
  | integer i => Decimal.signed i
  | real x => doubleLayout.chars (binaryOfFloat x)
  | single s => singleLayout.chars s.binary

end Number

namespace Json

def count (n : Nat) : Json := .number (.integer n)
def real (x : Float) : Json := .number (.real x)
def single (s : Score) : Json := .number (.single s)
def strings (xs : List String) : Json := .array (xs.map .string)
def optional {α : Type} (encode : α → Json) : Option α → Json
  | none => .null
  | some x => encode x

def escapedChar (c : Char) : List Char :=
  match c with
  | '"' => ['\\', '"']
  | '\\' => ['\\', '\\']
  | '\x08' => ['\\', 'b']
  | '\x0c' => ['\\', 'f']
  | '\n' => ['\\', 'n']
  | '\r' => ['\\', 'r']
  | '\t' => ['\\', 't']
  | c => if c.toNat < 0x20 then ['\\', 'u'] ++ Text.hexPadded 4 c.toNat else [c]

def stringChars (s : String) : List Char :=
  '"' :: (s.toList.flatMap escapedChar ++ ['"'])

/-- The blanks of a written form: those of a new line at some depth, and those that stand before
the value of a member. -/
structure Spacing where
  line : Nat → List Char
  value : List Char

def Spacing.packed : Spacing := ⟨fun _ => [], []⟩

def Spacing.spread : Spacing :=
  ⟨fun depth => '\n' :: List.replicate (2 * depth) ' ', [' ']⟩

mutual

def chars (s : Spacing) (depth : Nat) : Json → List Char
  | null => ['n', 'u', 'l', 'l']
  | bool true => ['t', 'r', 'u', 'e']
  | bool false => ['f', 'a', 'l', 's', 'e']
  | number n => n.chars
  | string t => stringChars t
  | array [] => ['[', ']']
  | array (x :: xs) =>
    '[' :: (s.line (depth + 1) ++ (chars s (depth + 1) x ++ itemChars s depth xs))
  | object [] => ['\x7b', '\x7d']
  | object ((key, x) :: xs) =>
    '\x7b' :: (s.line (depth + 1) ++ (stringChars key ++
      ':' :: (s.value ++ (chars s (depth + 1) x ++ memberChars s depth xs))))

def itemChars (s : Spacing) (depth : Nat) : List Json → List Char
  | [] => s.line depth ++ [']']
  | x :: xs =>
    ',' :: (s.line (depth + 1) ++ (chars s (depth + 1) x ++ itemChars s depth xs))

def memberChars (s : Spacing) (depth : Nat) : List (String × Json) → List Char
  | [] => s.line depth ++ ['\x7d']
  | (key, x) :: xs =>
    ',' :: (s.line (depth + 1) ++ (stringChars key ++
      ':' :: (s.value ++ (chars s (depth + 1) x ++ memberChars s depth xs))))

end

def compact (j : Json) : String := String.ofList (j.chars .packed 0)

def indented (j : Json) : String := String.ofList (j.chars .spread 0)

/-- A value shown inside running text: strings as they are, anything else compactly. -/
def plainText : Json → String
  | string s => s
  | j => j.compact

end Json

end EvalReport
