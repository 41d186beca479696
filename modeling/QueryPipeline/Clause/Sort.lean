import QueryPipeline.Clause.Scope
import QueryPipeline.Stage.Basic
import QueryPipeline.Text.Blank

namespace QueryPipeline.Sort

def readToken (token : List Char) : List Char × Int :=
  match Text.strip token with
  | '-' :: field => (field, -1)
  | field => (field, 1)

/-- The fields in the order of their first mention, with the direction of their last one. -/
def readSpec (text : String) : Entries Value :=
  let tokens := ((Text.splitOn ';' text.toList).map readToken).filter fun token => token.1 ≠ []
  Entries.ofList (tokens.map fun token => (String.ofList token.1, .int token.2))

def defaultSpec : Value → Except Mismatch Dict
  | .null => .ok []
  | v => do return [(← v.asScalar, .int (-1))]

def read (scope : Scope) (q : QueryObject) : Except Mismatch Dict :=
  let text := q.controlText "sort"
  if text = "" then defaultSpec scope.settings.defaultSort else .ok (.ofEntries (readSpec text))

def stages (spec : Dict) : List Stage :=
  if spec.isEmpty then [] else [.sort spec]

end QueryPipeline.Sort
