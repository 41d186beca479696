import QueryPipeline.Stage.Basic
import QueryPipeline.Value.Shape

namespace QueryPipeline.Stage

def optionalEntry (key : String) (v : Value) : List (String × Value) :=
  if v.isNull then [] else [(key, v)]

mutual

def toDocument : Stage → Value
  | .matching criteria => .map [("$match", criteria.toValue)]
  | .sort spec => .map [("$sort", spec.toValue)]
  | .project projection => .map [("$project", projection.toValue)]
  | .skip n => .map [("$skip", n)]
  | .limit n => .map [("$limit", n)]
  | .addFields fields => .map [("$addFields", fields.toValue)]
  | .lookup source target bindings pipeline localField foreignField =>
    .map [("$lookup", .map (
      [("from", source)] ++ optionalEntry "localField" localField ++
        optionalEntry "foreignField" foreignField ++
        (match bindings with
        | none => []
        | some entries => [("let", entries.toValue)]) ++
        (if bindings.isNone && pipeline.isEmpty then []
        else [("pipeline", .list (toDocuments pipeline))]) ++
        [("as", target)]))]
  | .count field => .map [("$count", field)]
  | .facet branches => .map [("$facet", Dict.toValue (branchDocuments branches))]
  | .raw document => document.toValue

def toDocuments : List Stage → List Value
  | [] => []
  | s :: rest => toDocument s :: toDocuments rest

def branchDocuments : List (Scalar × List Stage) → List (Scalar × Value)
  | [] => []
  | (name, stages) :: rest => (name, .list (toDocuments stages)) :: branchDocuments rest

end

def required (entries : Dict) (key : String) : Except Mismatch Value :=
  match Entries.get? entries (.text key) with
  | some v => .ok v
  | none => .error (.missing key)

def optional (entries : Dict) (key : String) : Value :=
  (Entries.get? entries (.text key)).getD .null

def bindingsOf : Value → Except Mismatch (Option Dict)
  | .null => .ok none
  | v => some <$> v.toDict

def rawOf (v : Value) : Except Mismatch Stage :=
  .raw <$> v.toDict

def lookupWith (fields : Dict) (pipeline : Except Mismatch (List Stage)) :
    Except Mismatch Stage := do
  let source ← required fields "from"
  let target ← required fields "as"
  let pipeline ← pipeline
  let bindings ← bindingsOf (optional fields "let")
  return .lookup source target bindings pipeline (optional fields "localField")
    (optional fields "foreignField")

mutual

def ofDocument : Value → Except Mismatch Stage
  | .map [(operator, argument)] =>
    if operator = "$match" then .matching <$> argument.toDict
    else if operator = "$sort" then .sort <$> argument.toDict
    else if operator = "$project" then .project <$> argument.toDict
    else if operator = "$skip" then .ok (.skip argument)
    else if operator = "$limit" then .ok (.limit argument)
    else if operator = "$addFields" ∨ operator = "$set" then .addFields <$> argument.toDict
    else if operator = "$lookup" then lookupOf argument
    else if operator = "$count" then .ok (.count argument)
    else if operator = "$facet" then facetOf argument
    else .ok (.raw [(.text operator, argument)])
  | v => rawOf v

def lookupOf : Value → Except Mismatch Stage
  | .map fields => lookupWith (.ofEntries fields) (pipelineUnder fields)
  | .keyed fields => lookupWith fields (pipelineIn fields)
  | _ => .error .notIndexed

def pipelineUnder : List (String × Value) → Except Mismatch (List Stage)
  | [] => .ok []
  | (key, v) :: rest => if key = "pipeline" then stagesIn v else pipelineUnder rest

def pipelineIn : List (Scalar × Value) → Except Mismatch (List Stage)
  | [] => .ok []
  | (key, v) :: rest => if key == "pipeline" then stagesIn v else pipelineIn rest

def facetOf : Value → Except Mismatch Stage
  | .map entries => do return .facet (← branchesUnder entries)
  | .keyed entries => do return .facet (← branchesIn entries)
  | _ => .error .notMap

def branchesUnder : List (String × Value) → Except Mismatch (List (Scalar × List Stage))
  | [] => .ok []
  | (name, v) :: rest => do
    let stages ← stagesIn v
    return (.text name, stages) :: (← branchesUnder rest)

def branchesIn : List (Scalar × Value) → Except Mismatch (List (Scalar × List Stage))
  | [] => .ok []
  | (name, v) :: rest => do
    let stages ← stagesIn v
    return (name, stages) :: (← branchesIn rest)

/-- The stages of the items of a value. What is no list has no stages as its items, so they have to
be empty. -/
def stagesIn : Value → Except Mismatch (List Stage)
  | .list items => ofDocuments items
  | v => do (← v.items).mapM rawOf

def ofDocuments : List Value → Except Mismatch (List Stage)
  | [] => .ok []
  | v :: rest => do
    let stage ← ofDocument v
    return stage :: (← ofDocuments rest)

end

end QueryPipeline.Stage
