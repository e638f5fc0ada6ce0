import EvalReport.Fault

/-! Files and folders, and the paths that name them. A path is walked step by step, from the root
if it begins with a slash and from the working folder if not; every place it passes has to be a
folder. -/
namespace EvalReport

inductive FileContent where
  | text (s : String)
  | bytes (b : ByteArray)

/-- Where a file or folder stands: the names that lead to it from the root. -/
abbrev Place := List String

/-- With a folder, the folders above it are there as well. -/
structure Folder where
  here : Place
  folders : List Place
  files : List (Place × FileContent)

def pathSteps (path : String) : List String :=
  ((path.toList.splitOn '/').filter fun step => step ≠ []).map String.ofList

/-- The steps that lead anywhere: a single dot stays where it is. -/
def pathParts (path : String) : List String := (pathSteps path).filter fun step => step ≠ "."

def pathExtension (path : String) : Option String :=
  match (pathParts path).getLast? with
  | none => none
  | some name =>
    if name = ".." then none
    else match (name.toList.splitOn '.').reverse with
      | _ :: [] => none
      | [_, []] => none
      | last :: _ => some (String.ofList last)
      | [] => none

namespace Folder

def empty : Folder := ⟨["work"], [], []⟩

def isFolder (f : Folder) (place : Place) : Bool :=
  place.isPrefixOf f.here || f.folders.any fun folder => place.isPrefixOf folder

def content? (f : Folder) (place : Place) : Option FileContent := f.files.lookup place

/-- Why a place that is no folder cannot be entered. -/
def blocked (f : Folder) (place : Place) : FileFault :=
  if (f.content? place).isSome then .notDirectory else .missing

def enter (f : Folder) (place : Place) (step : String) : Except FileFault Place :=
  if f.isFolder place then
    .ok (if step = "." then place else if step = ".." then place.dropLast else place ++ [step])
  else .error (f.blocked place)

def walk (f : Folder) (path : String) : Except FileFault Place :=
  (pathSteps path).foldlM f.enter (if path.toList.head? = some '/' then [] else f.here)

/-- The place of the file that a path names, or why it names none. A slash at the end asks for a
folder, and a folder is not written to. -/
def locate (f : Folder) (writing : Bool) (path : String) : Except FileFault Place :=
  if path.toList.contains '\x00' then .error .nulByte
  else if path = "" then .error .missing
  else do
    let place ← f.walk path
    if f.isFolder place then .error .isDirectory
    else if path.toList.getLast? = some '/' then
      .error (if writing then .isDirectory else f.blocked place)
    else .ok place

def write (f : Folder) (path : String) (content : FileContent) : Except FileFault Folder :=
  (f.locate true path).map fun place =>
    { f with files := (place, content) :: f.files.filter fun file => file.1 ≠ place }

def readText (f : Folder) (path : String) : Except FileFault String := do
  match f.content? (← f.locate false path) with
  | none => .error .missing
  | some (.text s) => .ok s
  | some (.bytes b) =>
    match String.fromUTF8? b with
    | some s => .ok s
    | none => .error .notText

end Folder

end EvalReport
