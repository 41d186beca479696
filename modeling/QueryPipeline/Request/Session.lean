import QueryPipeline.Clause.Page
import QueryPipeline.Clause.Populate
import QueryPipeline.Clause.Search
import QueryPipeline.Clause.Sort
import QueryPipeline.Engine.Counting
import QueryPipeline.Query.Language
import QueryPipeline.Query.Parameters
import QueryPipeline.Request.Log
import QueryPipeline.Schema.Source

namespace QueryPipeline

structure Session where
  scope : Scope
  parameters : QueryObject
  stages : List Stage := []
  /-- the operations that were applied, whether or not they succeeded -/
  applied : List Operation := []
  compiled : Option CompiledPipeline := none
  collection : Option Collection := none
  log : List LogLine := []

inductive Clause where
  | filter
  | search (fields : Value)
  | sort
  | limitFields
  | paginate
  | populate

def Clause.operation : Clause → Operation
  | .filter => .filter
  | .search _ => .search
  | .sort => .sort
  | .limitFields => .limitFields
  | .paginate => .paginate
  | .populate => .populate

/-- What a clause comes to: lines for the log, and stages, unless they cannot be compiled. -/
structure Compilation where
  lines : List LogLine := []
  stages : Except Fault (List Stage)

inductive Step where
  | apply (clause : Clause)
  | addStage (document : Value)
  | finish
  | facet
  | useCollection (collection : Collection)
  | execute (awaits : Bool)
  | count (awaits : Bool)

inductive Answer where
  | nothing
  | compiled (pipeline : CompiledPipeline)
  | facet (pipeline : Value)
  | result (value : Value)

namespace Session

def droppedLines (schema : Schema) (query : Dict) : List LogLine :=
  (droppedFields schema query).map fun field =>
    { level := .debug
      channel := "apifeatures.query_object"
      message := "Dropped unknown field `" ++ field ++ "` of " ++ schema.modelText }

def infoLine (message : String) : LogLine :=
  { level := .info, channel := "apifeatures.query", message }

def name (schema : Schema) : String :=
  "ApiFeatures(" ++ schema.modelText ++ ")"

/-- The language that a session is asked for: the one that is given, else the one of the query, when
it is accepted. -/
def askedLanguage (settings : Settings) (given : Value) (q : QueryObject) :
    Except Mismatch (Option Value) :=
  settings.accepted? (if given.truthy then given else q.controlValue "lang")

/-- Starts a session with a query in the form of entries. The lines of the log come also when it
fails. -/
def start (source : SchemaSource) (settings : Settings) (query : Value) (language : Value) :
    List LogLine × Except Fault Session :=
  match (do
    let schema ← source.resolve
    let entries ← Mismatch.lift (query.orElse (.map [])).toDict
    return (schema, entries)) with
  | .error f => ([], .error f)
  | .ok (schema, entries) =>
    let dropped := droppedLines schema entries
    match (do
      let parameters ← QueryObject.parse schema entries
      let asked ← Mismatch.lift (askedLanguage settings language parameters)
      return (parameters, asked)) with
    | .error f => (dropped, .error f)
    | .ok (parameters, asked) =>
      let scope : Scope := { schema, settings, asked }
      let lines :=
        if settings.logs.truthy then
          [infoLine (name schema ++ ": query=" ++ entries.literal ++
            " lang=" ++ scope.language.plain)]
        else []
      let log := dropped ++ lines
      (log, .ok { scope, parameters, log })

def searchLines (scope : Scope) (search : Search) : List LogLine :=
  match search.unsearchable? scope with
  | some field =>
    [{ level := .debug
       channel := "apifeatures.handlers.search"
       message := "Search skipped: field `" ++ field ++ "` of " ++ scope.schema.modelText ++
        " is not a String" }]
  | none => []

/-- Compiles a clause. It fails when the parameters cannot be read; the compilation tells what fails
later. -/
def compile (s : Session) : Clause → Except Fault Compilation
  | .filter => .ok { stages := s.scope.filterStages s.parameters }
  | .search fields => do
    let search ← Mismatch.lift (Search.read s.parameters fields)
    return { lines := searchLines s.scope search, stages := .ok (search.stages s.scope) }
  | .sort => do
    let spec ← Mismatch.lift (Sort.read s.scope s.parameters)
    return { stages := .ok (Sort.stages spec) }
  | .limitFields => .ok { stages := Mismatch.lift (Projection.stages s.scope s.parameters) }
  | .paginate => .ok { stages := .ok (Page.read s.scope.settings s.parameters).stages }
  | .populate => .ok { stages := Populate.stages s.scope s.parameters }

/-- Applies a clause. Its operation counts as applied from the start; the parameters are read before
the session is found compiled. -/
def apply (s : Session) (clause : Clause) : Except Fault Answer × Session :=
  if s.applied.contains clause.operation then (.error (.operationReused clause.operation), s)
  else
    let s := { s with applied := clause.operation :: s.applied }
    match s.compile clause with
    | .error f => (.error f, s)
    | .ok compilation =>
      if s.compiled.isSome then (.error .alreadyCompiled, s)
      else
        let s := { s with log := s.log ++ compilation.lines }
        match compilation.stages with
        | .error f => (.error f, s)
        | .ok stages => (.ok .nothing, { s with stages := s.stages ++ stages })

def addStage (s : Session) (document : Value) : Except Fault Answer × Session :=
  if s.compiled.isSome then (.error .alreadyCompiled, s)
  else
    match Mismatch.lift (Stage.ofDocument document) with
    | .error f => (.error f, s)
    | .ok stage => (.ok .nothing, { s with stages := s.stages ++ [stage] })

def finish (s : Session) : Except Fault CompiledPipeline × Session :=
  match s.compiled with
  | some pipeline => (.ok pipeline, s)
  | none =>
    match Mismatch.lift (Pipeline.reorder s.stages) with
    | .error f => (.error f, s)
    | .ok stages =>
      let pipeline := { stages, counted := s.scope.settings.countsTotal.truthy }
      (.ok pipeline, { s with compiled := some pipeline })

def logPipeline (s : Session) (pipeline : Value) : Except Fault Session :=
  if s.scope.settings.logs.truthy then
    match pipeline.unwritable? with
    | some m => .error (.mismatch m)
    | none =>
      let line := infoLine (name s.scope.schema ++ " pipeline: " ++ pipeline.document 0)
      .ok { s with log := s.log ++ [line] }
  else .ok s

def send (s : Session) (pipeline : Value) : Except Fault Collection × Session :=
  match s.logPipeline pipeline with
  | .error f => (.error f, s)
  | .ok s =>
    match s.collection with
    | none => (.error .noCollection, s)
    | some collection => (.ok collection, s)

def execute (s : Session) (awaits : Bool) : Except Fault Answer × Session :=
  match s.finish with
  | (.error f, s) => (.error f, s)
  | (.ok pipeline, s) =>
    match s.send pipeline.facet with
    | (.error f, s) => (.error f, s)
    | (.ok collection, s) =>
      let run : CountingRun := { pipeline, collection }
      let (done, run) := run.execute awaits
      (done.map fun _ => .result run.result, { s with collection := some run.collection })

def count (s : Session) (awaits : Bool) : Except Fault Answer × Session :=
  match s.finish with
  | (.error f, s) => (.error f, s)
  | (.ok pipeline, s) =>
    let documents := Value.list (Stage.toDocuments (countingStages pipeline.stages))
    match s.send documents with
    | (.error f, s) => (.error f, s)
    | (.ok collection, s) =>
      let (rows, collection) := collection.aggregate awaits documents
      (do return .result (← Mismatch.lift (totalOf (← rows))),
        { s with collection := some collection })

/-- Goes one step; a step that fails leaves what was reached. -/
def step (s : Session) : Step → Except Fault Answer × Session
  | .apply clause => s.apply clause
  | .addStage document => s.addStage document
  | .finish =>
    let (pipeline, s) := s.finish
    (pipeline.map .compiled, s)
  | .facet =>
    let (pipeline, s) := s.finish
    (pipeline.map fun p => .facet p.facet, s)
  | .useCollection collection => (.ok .nothing, { s with collection := some collection })
  | .execute awaits => s.execute awaits
  | .count awaits => s.count awaits

end Session

end QueryPipeline
