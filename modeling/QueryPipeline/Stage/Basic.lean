import QueryPipeline.Value.Literal
import QueryPipeline.Value.Same

namespace QueryPipeline

inductive Stage where
  | matching (criteria : Dict)
  | sort (spec : Dict)
  | project (projection : Dict)
  | skip (n : Value)
  | limit (n : Value)
  | addFields (fields : Dict)
  /-- join documents of another collection: by equal fields, or by a pipeline with
  bound variables -/
  | lookup (source target : Value) (bindings : Option Dict)
      (pipeline : List Stage) (localField foreignField : Value)
  | count (field : Value)
  | facet (branches : List (Scalar × List Stage))
  | raw (document : Dict)
deriving Inhabited

namespace Stage

def kind : Stage → String
  | .matching _ => "Match"
  | .sort _ => "Sort"
  | .project _ => "Project"
  | .skip _ => "Skip"
  | .limit _ => "Limit"
  | .addFields _ => "AddFields"
  | .lookup .. => "Lookup"
  | .count _ => "Count"
  | .facet _ => "Facet"
  | .raw _ => "RawStage"

/-- The operator that a stage is written with; of a raw stage its first key. -/
def operator? : Stage → Option Scalar
  | .matching _ => some (.text "$match")
  | .sort _ => some (.text "$sort")
  | .project _ => some (.text "$project")
  | .skip _ => some (.text "$skip")
  | .limit _ => some (.text "$limit")
  | .addFields _ => some (.text "$addFields")
  | .lookup .. => some (.text "$lookup")
  | .count _ => some (.text "$count")
  | .facet _ => some (.text "$facet")
  | .raw document => document.head?.map Prod.fst

def tupleText : List String → String
  | [text] => "(" ++ text ++ ",)"
  | texts => "(" ++ commaSeparated texts ++ ")"

mutual

def literal : Stage → String
  | .matching criteria => "Match(" ++ criteria.literal ++ ")"
  | .sort spec => "Sort(" ++ spec.literal ++ ")"
  | .project projection => "Project(" ++ projection.literal ++ ")"
  | .skip n => "Skip(" ++ n.literal ++ ")"
  | .limit n => "Limit(" ++ n.literal ++ ")"
  | .addFields fields => "AddFields(" ++ fields.literal ++ ")"
  | .lookup source target bindings pipeline localField foreignField =>
    "Lookup(" ++ commaSeparated
      [source.literal, target.literal, ((bindings.map Dict.toValue).getD .null).literal,
       tupleText (literals pipeline), localField.literal, foreignField.literal] ++ ")"
  | .count field => "Count(" ++ field.literal ++ ")"
  | .facet branches => "Facet(\x7b" ++ commaSeparated (branchLiterals branches) ++ "\x7d)"
  | .raw document => "RawStage(" ++ document.literal ++ ")"

def literals : List Stage → List String
  | [] => []
  | s :: rest => literal s :: literals rest

def branchLiterals : List (Scalar × List Stage) → List String
  | [] => []
  | (name, stages) :: rest =>
    (name.literal ++ ": " ++ tupleText (literals stages)) :: branchLiterals rest

end

def sameMap (reflexive : Bool) (es fs : Dict) : Bool :=
  es.toValue.sameBy reflexive fs.toValue

mutual

def sameBy (reflexive : Bool) : Stage → Stage → Bool
  | .matching a, .matching b => sameMap reflexive a b
  | .sort a, .sort b => sameMap reflexive a b
  | .project a, .project b => sameMap reflexive a b
  | .skip m, .skip n => m.sameBy reflexive n
  | .limit m, .limit n => m.sameBy reflexive n
  | .addFields a, .addFields b => sameMap reflexive a b
  | .lookup source target bindings pipeline localField foreignField,
      .lookup source' target' bindings' pipeline' localField' foreignField' =>
    source.sameBy reflexive source' && target.sameBy reflexive target' &&
      (match bindings, bindings' with
      | none, none => true
      | some a, some b => sameMap reflexive a b
      | _, _ => false) &&
      sameStages reflexive pipeline pipeline' &&
      localField.sameBy reflexive localField' && foreignField.sameBy reflexive foreignField'
  | .count a, .count b => a.sameBy reflexive b
  | .facet a, .facet b => a.length = b.length && sameBranches reflexive a b
  | .raw a, .raw b => sameMap reflexive a b
  | _, _ => false

def sameStages (reflexive : Bool) : List Stage → List Stage → Bool
  | [], [] => true
  | s :: ss, t :: ts => sameBy reflexive s t && sameStages reflexive ss ts
  | _, _ => false

def sameBranches (reflexive : Bool) : List (Scalar × List Stage) → List (Scalar × List Stage) → Bool
  | [], _ => true
  | (name, stages) :: rest, others =>
    (match others.find? fun branch => branch.1.sameBy reflexive name with
    | some branch => sameStages reflexive stages branch.2
    | none => false) &&
      sameBranches reflexive rest (others.eraseP fun branch => branch.1.sameBy reflexive name)

end

def same (s t : Stage) : Bool := sameBy false s t

end Stage

end QueryPipeline
