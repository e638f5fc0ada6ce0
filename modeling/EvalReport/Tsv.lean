/-! Tab-separated records. A field is quoted if it holds a tab, a quote or a line end, its
quotes doubled; every record ends its line. -/
namespace EvalReport.Tsv

def needsQuotes (field : List Char) : Bool :=
  field.any fun c => c == '\t' || c == '"' || c == '\r' || c == '\n'

def doubled (field : List Char) : List Char :=
  field.flatMap fun c => if c = '"' then ['"', '"'] else [c]

def fieldChars (field : String) : List Char :=
  let cs := field.toList
  if needsQuotes cs then '"' :: (doubled cs ++ ['"']) else cs

def recordChars : List String → List Char
  | [] => ['\n']
  | [field] => fieldChars field ++ ['\n']
  | field :: rest => fieldChars field ++ '\t' :: recordChars rest

def text (records : List (List String)) : String :=
  String.ofList (records.flatMap recordChars)

end EvalReport.Tsv
