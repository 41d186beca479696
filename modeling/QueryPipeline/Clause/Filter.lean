import QueryPipeline.Clause.Coerce
import QueryPipeline.Clause.Scope
import QueryPipeline.Stage.Basic
import QueryPipeline.Text.Escape

namespace QueryPipeline

/-- The field contains the text, in any case. -/
def regexCondition : Value → Except Mismatch Value
  | .text s => .ok (.map [("$regex", .text (Text.escapePattern s)), ("$options", .text "i")])
  | _ => .error .notPattern

namespace Scope

def condition (scope : Scope) : Expression → Except Fault Value
  | .regex _ text => Mismatch.lift (regexCondition text)
  | .operator field operator v => do
    return .map [(operator, ← Coerce.values field (scope.schema.declaredType? field) v)]
  | .equals field v => Coerce.values field (scope.schema.declaredType? field) v
  | .join key payload => .error (.notFilter (.join key payload))

def anyPath (paths : List String) (condition : Value) : Entries Value :=
  match paths with
  | [path] => [(path, condition)]
  | _ => [("$or", .list (paths.map fun path => .map [(path, condition)]))]

def criteria (scope : Scope) (e : Expression) : Except Fault (Entries Value) := do
  return anyPath (scope.queryPaths e.field) (← scope.condition e)

def filterStages (scope : Scope) (q : QueryObject) : Except Fault (List Stage) :=
  q.filters.mapM fun e => do return .matching (.ofEntries (← scope.criteria e))

end Scope

end QueryPipeline
