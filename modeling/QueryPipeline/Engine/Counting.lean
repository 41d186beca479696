import QueryPipeline.Engine.Collection
import QueryPipeline.Pipeline.Compiled

namespace QueryPipeline

def rowField? (row : Value) (key : String) : Except Mismatch (Option Value) :=
  match row with
  | .map entries => .ok (Entries.get? entries key)
  | .keyed entries => .ok (Entries.get? entries (.text key))
  | _ => .error .notMap

/-- The total in the first of the rows that count: zero when there is no row, or no total in it. -/
def totalOf (rows : List Value) : Except Mismatch Value :=
  match rows with
  | [] => .ok (.int 0)
  | row :: _ => do return (← rowField? row totalField).getD (.int 0)

def facetRow (rows : List Value) : Value :=
  rows.headD (.map [])

def branchItems (row : Value) (name : String) : Except Mismatch (List Value) := do
  (((← rowField? row name).getD .null).orElse (.list [])).items

structure CountingRun where
  pipeline : CompiledPipeline
  collection : Collection
  documents : Value := .null
  total : Value := .null
  loaded : Bool := false

namespace CountingRun

/-- Takes an answer over: first its documents, then the total when documents are counted. -/
def load (run : CountingRun) (rows : List Value) : Except Mismatch Unit × CountingRun :=
  match branchItems (facetRow rows) "documents" with
  | .error m => (.error m, run)
  | .ok documents =>
    let run := { run with documents := .list documents }
    if run.pipeline.counted then
      match branchItems (facetRow rows) "totalCount" >>= totalOf with
      | .error m => (.error m, run)
      | .ok total => (.ok (), { run with total, loaded := true })
    else (.ok (), { run with total := .null, loaded := true })

def execute (run : CountingRun) (awaits : Bool) : Except Fault Unit × CountingRun :=
  let (rows, collection) := run.collection.aggregate awaits run.pipeline.facet
  let run := { run with collection }
  match rows with
  | .error f => (.error f, run)
  | .ok rows =>
    let (loaded, run) := run.load rows
    (Mismatch.lift loaded, run)

def ensureLoaded (run : CountingRun) : Except Fault Unit × CountingRun :=
  if run.loaded then (.ok (), run) else run.execute false

def reading (run : CountingRun) (read : CountingRun → Value) : Except Fault Value × CountingRun :=
  let (loaded, run) := run.ensureLoaded
  (loaded.map fun _ => read run, run)

def result (run : CountingRun) : Value :=
  .map [("documents", run.documents), ("totalCount", run.total)]

end CountingRun

inductive CountingStep where
  | execute (awaits : Bool)
  | count
  | documents
  | iterate
  | result

def CountingRun.step (run : CountingRun) : CountingStep → Except Fault (Option Value) × CountingRun
  | .execute awaits =>
    let (done, run) := run.execute awaits
    (done.map fun _ => none, run)
  | .count => answer (·.total)
  | .documents => answer (·.documents)
  | .iterate => answer (·.documents)
  | .result => answer (·.result)
where
  answer (read : CountingRun → Value) : Except Fault (Option Value) × CountingRun :=
    let (value, run) := run.reading read
    (value.map some, run)

end QueryPipeline
