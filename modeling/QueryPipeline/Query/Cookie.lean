import QueryPipeline.Text.Blank
import QueryPipeline.Text.Percent
import QueryPipeline.Text.Pieces

namespace QueryPipeline.Cookie

def readPair? (pair : List Char) : Option (List Char × List Char) :=
  match Text.cutFirst '=' (Text.strip pair) with
  | (name, some value) => some (name, value)
  | (_, none) => none

def get? (header : Option String) (name : String) : Option String :=
  let found := (Text.splitOn ';' (header.getD "").toList).findSome? fun pair =>
    match readPair? pair with
    | some (key, value) => if key = name.toList then some value else none
    | none => none
  found.map fun value => String.ofList (Text.unquote value)

end QueryPipeline.Cookie
