import EvalReport.Document

/-! The tree that the lines of a TOML document grow. A table is opened by a header, by a
header of one of its parts, or by dotted keys; which of these it was decides what may still
be added to it. -/
namespace EvalReport.Toml

inductive Item where
  | value (d : Document)
  /-- `implied`: no header of its own yet. `dotted`: grown by dotted keys. -/
  | table (implied dotted : Bool) (members : List (String × Item))
  | array (tables : List (List (String × Item)))

abbrev Members := List (String × Item)

mutual

def Item.document : Item → Document
  | .value d => d
  | .table _ _ members => .record (memberDocuments members)
  | .array tables => .list (tableDocuments tables)

def memberDocuments : List (String × Item) → List (Option String × Document)
  | [] => []
  | (key, item) :: rest => (some key, item.document) :: memberDocuments rest

def tableDocuments : List (List (String × Item)) → List Document
  | [] => []
  | members :: rest => .record (memberDocuments members) :: tableDocuments rest

end

def replace (key : String) (item : Item) : Members → Members
  | [] => []
  | (name, old) :: rest =>
    if name = key then (name, item) :: rest else (name, old) :: replace key item rest

/-- Goes down a path, growing tables where there are none, and lets `act` change the members
at its end; `act` is told whether the table there was grown by dotted keys. Dotted keys
cannot enter a table that has a header. -/
def within (dotted : Bool) (act : Bool → Members → Option Members) :
    List String → Bool → Members → Option Members
  | [], grown, ms => act grown ms
  | key :: path, _, ms =>
    match ms.lookup key with
    | none => do
      let inner ← within dotted act path dotted []
      some (ms ++ [(key, .table true dotted inner)])
    | some (.value _) => none
    | some (.array tables) =>
      match tables.getLast? with
      | none => none
      | some last => do
        let inner ← within dotted act path false last
        some (replace key (.array (tables.dropLast ++ [inner])) ms)
    | some (.table implied grown members) =>
      if dotted && !implied then none
      else do
        let inner ← within dotted act path grown members
        some (replace key (.table implied grown inner) ms)

def enter (path : List String) (key : String) (d : Document) (ms : Members) : Option Members :=
  within true (fun grown ms =>
    if grown == path.isEmpty then none
    else match ms.lookup key with
      | some _ => none
      | none => some (ms ++ [(key, .value d)])) path false ms

def openTable (path : List String) (key : String) (root : Members) : Option Members :=
  within false (fun _ ms =>
    match ms.lookup key with
    | none => some (ms ++ [(key, .table false false [])])
    | some (.table true false members) => some (replace key (.table false false members) ms)
    | some _ => none) path false root

def openArray (path : List String) (key : String) (root : Members) : Option Members :=
  within false (fun _ ms =>
    match ms.lookup key with
    | none => some (ms ++ [(key, .array [[]])])
    | some (.array tables) => some (replace key (.array (tables ++ [[]])) ms)
    | some _ => none) path false root

def enterAt (header path : List String) (key : String) (d : Document) (root : Members) :
    Option Members :=
  within false (fun _ ms => enter path key d ms) header false root

end EvalReport.Toml
