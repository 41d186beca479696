import QueryPipeline.Clause.Projection
import QueryPipeline.Schema.Table

namespace QueryPipeline.Populate

def referenceVariable : String := "localFieldValue"

def collectionOf (schema : Schema) (join : Expression) (key : String) : Except Fault String :=
  let target := schema.relationTarget join.field
  if target.truthy then do return pluralName (← Mismatch.lift target.asText)
  else .error (.unresolvedRelation schema.modelName key)

/-- A field of a list of ids has to hold the id; any other is the id. -/
def correlation (schema : Schema) (field : String) : String :=
  if schema.declaredType? field = some .array then "$in" else "$eq"

def correlationStage (schema : Schema) (field : String) : Stage :=
  .matching [("$expr", .map [(correlation schema field,
    .list [.text "$_id", .text ("$$" ++ referenceVariable)])])]

/-- The fields of the related documents that are wanted: all of them, or those of the payload. -/
def wanted (join : Expression) : Except Mismatch (List Stage) := do
  if join.isWildcard then return []
  else return [.project (Projection.toDict (Projection.ofPayload (← join.value.asText)))]

def hidden (settings : Settings) : Except Mismatch (List Stage) := do
  if settings.hiddenFields.isEmpty then return []
  else return [.project (Projection.toDict (← Projection.exclusions settings))]

/-- The stages of a join: a missing reference becomes an empty one, and then the documents are
looked up. -/
def joinStages (scope : Scope) (join : Expression) (key : String) : Except Fault (List Stage) := do
  let field := join.field
  let collection ← collectionOf scope.schema join key
  let wanted ← Mismatch.lift (wanted join)
  let hidden ← Mismatch.lift (hidden scope.settings)
  return [
    .addFields [(field, .map [("$ifNull", .list [.text ("$" ++ field), .list []])])],
    .lookup (.text collection) (.text field) (some [(referenceVariable, .text ("$" ++ field))])
      (correlationStage scope.schema field :: wanted ++ hidden) .null .null]

def stages (scope : Scope) (q : QueryObject) : Except Fault (List Stage) := do
  let perJoin ← q.joins.mapM fun e =>
    match e with
    | .join key _ => joinStages scope e key
    | _ => .ok []
  return perJoin.flatten

end QueryPipeline.Populate
