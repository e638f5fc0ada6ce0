import EvalReport.Json
import EvalReport.Table

/-! The tree that a text in a data notation is read into, and readers of typed values
from it. A literal may be well written and still mean nothing, such as a number past the
largest double; it has no value, which matters only to a reader that asks for it. -/
namespace EvalReport

inductive Document where
  | null
  | flag (b : Bool)
  | number (n : Option Number)
  | text (s : Option String)
  | date
  | list (items : List Document)
  | record (members : List (Option String × Document))

instance : Inhabited Document := ⟨.null⟩

def collect {α β : Type} (f : α → Option β) : List α → Option (List β)
  | [] => some []
  | x :: xs => do
    let head ← f x
    let tail ← collect f xs
    some (head :: tail)

namespace Document

mutual

/-- The JSON value of a tree in which every literal has one; of two members of one name
the later stands, and members are put in the order of their names. -/
def json? : Document → Option Json
  | null => some .null
  | flag b => some (.bool b)
  | number n => n.map .number
  | text s => s.map .string
  | date => none
  | list items => (jsonItems? items).map .array
  | record members => (jsonMembers? members).map fun ms => .object (Table.ofList ms).entries

def jsonItems? : List Document → Option (List Json)
  | [] => some []
  | x :: xs => do
    let head ← json? x
    let tail ← jsonItems? xs
    some (head :: tail)

def jsonMembers? : List (Option String × Document) → Option (List (String × Json))
  | [] => some []
  | (key, x) :: xs => do
    let key ← key
    let head ← json? x
    let tail ← jsonMembers? xs
    some ((key, head) :: tail)

end

mutual

def ofJson : Json → Document
  | .null => null
  | .bool b => flag b
  | .number n => number (some n)
  | .string s => text (some s)
  | .array items => list (ofJsonItems items)
  | .object members => record (ofJsonMembers members)

def ofJsonItems : List Json → List Document
  | [] => []
  | x :: xs => ofJson x :: ofJsonItems xs

def ofJsonMembers : List (String × Json) → List (Option String × Document)
  | [] => []
  | (key, x) :: xs => (some key, ofJson x) :: ofJsonMembers xs

end

abbrev Reader (α : Type) := Document → Option α

def flag? : Reader Bool
  | flag b => some b
  | _ => none

def text? : Reader String
  | text s => s
  | _ => none

def count? : Reader Nat
  | number (some (.integer (.ofNat n))) => if n < 0x10000000000000000 then some n else none
  | _ => none

def real? : Reader Float
  | number (some (.integer (.ofNat n))) => some (Float.ofNat n)
  | number (some (.integer (.negSucc n))) => some (-(Float.ofNat (n + 1)))
  | number (some (.real x)) => some x
  | number (some (.single s)) => some s.toFloat
  | _ => none

/-- A score; an integer is rounded once, anything else by way of a double. -/
def score? : Reader Score
  | number (some (.integer i)) => some (Score.ofInt i)
  | d => (real? d).map Score.ofFloat

def optional? {α : Type} (read : Reader α) : Reader (Option α)
  | null => some none
  | d => (read d).map some

def list? {α : Type} (read : Reader α) : Reader (List α)
  | list items => collect read items
  | _ => none

def table? {α : Type} (read : Reader α) : Reader (Table α)
  | record members =>
    (collect (fun (m : Option String × Document) => do
      let key ← m.1
      let value ← read m.2
      some (key, value)) members).map Table.ofList
  | _ => none

/-- What stands for "nothing more" behind the name of an alternative. -/
inductive Bare where
  | null
  | empty
  deriving DecidableEq, Repr

def Bare.accepts : Bare → Document → Bool
  | .null, .null => true
  | .empty, .list [] => true
  | .empty, .record [] => true
  | _, _ => false

def alternative? {α : Type} (bare : Bare) (names : List (String × α)) : Reader α
  | text (some s) => names.lookup s
  | record [(some s, rest)] => if bare.accepts rest then names.lookup s else none
  | _ => none

/-- The named fields of a record. A field given twice is an error, an unknown one is
skipped, and where `positional` is set a list gives the fields in order. -/
structure Fields where
  positional : Bool
  names : List String

/-- The values of the fields, in the order of `names`; `none` for one that is missing,
and beside it whether the values came by position. -/
def Fields.read (f : Fields) : Reader (Bool × List (Option Document))
  | record members => do
    let known ← collect (·.1) members
    if f.names.all fun name => known.count name ≤ 1 then
      some (false, f.names.map fun name =>
        (members.find? fun m => m.1 == some name).map (·.2))
    else none
  | list items =>
    if f.positional && items.length ≤ f.names.length then
      some (true, items.map some ++ List.replicate (f.names.length - items.length) none)
    else none
  | _ => none

end Document

end EvalReport
