import EvalReport.Text.Shown

/-! Names quoted in messages: in double quotes, with short escapes for the common
controls and a numbered one for every other character that is not shown. -/
namespace EvalReport.Text

def hexDigit (d : Nat) : Char :=
  if d < 10 then Char.ofNat (48 + d) else Char.ofNat (87 + d)

def hex (n : Nat) : List Char :=
  if n < 16 then [hexDigit n] else hex (n / 16) ++ [hexDigit (n % 16)]
termination_by n

def hexPadded (width n : Nat) : List Char :=
  List.replicate (width - (hex n).length) '0' ++ hex n

def quotedChar (c : Char) : List Char :=
  match c with
  | '\x00' => ['\\', '0']
  | '\t' => ['\\', 't']
  | '\r' => ['\\', 'r']
  | '\n' => ['\\', 'n']
  | '"' => ['\\', '"']
  | '\\' => ['\\', '\\']
  | c => if isShown c then [c] else ['\\', 'u', '\x7b'] ++ hex c.toNat ++ ['\x7d']

def quoted (s : String) : String :=
  String.ofList (['"'] ++ s.toList.flatMap quotedChar ++ ['"'])

end EvalReport.Text
