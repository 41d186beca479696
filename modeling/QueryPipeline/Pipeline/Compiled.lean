import QueryPipeline.Pipeline.Order
import QueryPipeline.Stage.Document

namespace QueryPipeline

def totalField : String := "total"

def countingStages (stages : List Stage) : List Stage :=
  stages.filter (fun s => !s.isPage) ++ [.count (.text totalField)]

structure CompiledPipeline where
  stages : List Stage
  counted : Bool

namespace CompiledPipeline

def countStages? (p : CompiledPipeline) : Option (List Stage) :=
  if p.counted then some (countingStages p.stages) else none

def documents (p : CompiledPipeline) : Value :=
  .list (Stage.toDocuments p.stages)

def countDocuments (p : CompiledPipeline) : Value :=
  match p.countStages? with
  | some stages => .list (Stage.toDocuments stages)
  | none => .null

def facetStage (p : CompiledPipeline) : Stage :=
  .facet (("documents", p.stages) ::
    (match p.countStages? with
    | some stages => [("totalCount", stages)]
    | none => []))

def facet (p : CompiledPipeline) : Value :=
  .list [p.facetStage.toDocument]

def literal (p : CompiledPipeline) : String :=
  "CompiledPipeline([" ++ commaSeparated (Stage.literals p.stages) ++ "])"

end CompiledPipeline

end QueryPipeline
