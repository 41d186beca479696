import QueryPipeline.Fault
import QueryPipeline.Schema.Table

namespace QueryPipeline

inductive SchemaSource where
  | schema (s : Schema)
  | mapping (fields : List (String × Value))
  | table (t : Table)

def SchemaSource.resolve : SchemaSource → Except Fault Schema
  | .schema s => .ok s
  | .mapping fields => Mismatch.lift (Schema.ofMapping fields .null none)
  | .table t => if t.aliased then .error .aliasedModel else Mismatch.lift (Schema.ofTable t)

end QueryPipeline
