import QueryPipeline.Pipeline.Criteria
import QueryPipeline.Stage.Basic

namespace QueryPipeline

namespace Stage

def matching? : Stage → Option Dict
  | .matching criteria => some criteria
  | _ => none

def sort? : Stage → Option Dict
  | .sort spec => some spec
  | _ => none

def project? : Stage → Option Dict
  | .project projection => some projection
  | _ => none

def isMatching (s : Stage) : Bool := s.matching?.isSome

def isSort (s : Stage) : Bool := s.sort?.isSome

def isProject (s : Stage) : Bool := s.project?.isSome

def isSkip : Stage → Bool
  | .skip _ => true
  | _ => false

def isLimit : Stage → Bool
  | .limit _ => true
  | _ => false

def isPage (s : Stage) : Bool := s.isSkip || s.isLimit

end Stage

namespace Pipeline

/-- The names of fields that hold the score of a search. -/
def relevanceKeys : List String := ["relevance", "score"]

def hasRelevance (spec : Dict) : Bool :=
  relevanceKeys.any fun key => Entries.has spec (.text key)

/-- The first sort by the score of a search goes before the others. -/
def relevanceFirst (specs : List Dict) : List Dict :=
  match specs.find? hasRelevance with
  | some spec => spec :: specs.eraseP hasRelevance
  | none => specs

/-- Several specifications in one: a key keeps the place of its first visit, and the value of its
last. -/
def union (all : List Dict) : Dict :=
  all.foldl Entries.update []

def consolidateSort (stages : List Stage) : List Stage :=
  let spec := union (relevanceFirst (stages.filterMap Stage.sort?))
  let others := stages.filter fun s => !s.isSort
  if spec.isEmpty then others else others ++ [.sort spec]

/-- Moves the first skip and the first limit to the end, and drops the others, when there
are both. -/
def relocatePage (stages : List Stage) : List Stage :=
  match stages.find? Stage.isSkip, stages.find? Stage.isLimit with
  | some skip, some limit => stages.filter (fun s => !s.isPage) ++ [skip, limit]
  | _, _ => stages

def relocateProjection (stages : List Stage) : List Stage :=
  let projections := stages.filterMap Stage.project?
  if projections.isEmpty then stages
  else stages.filter (fun s => !s.isProject) ++ [.project (union projections)]

def consolidateMatch (stages : List Stage) : Except Mismatch (List Stage) := do
  let matches' := stages.filterMap Stage.matching?
  if matches'.isEmpty then return stages
  let criteria ← Criteria.mergeAll matches'
  return .matching criteria :: stages.filter fun s => !s.isMatching

def reorder (stages : List Stage) : Except Mismatch (List Stage) :=
  consolidateMatch (relocateProjection (relocatePage (consolidateSort stages)))

inductive Pass where
  | whole
  | sorts
  | pages
  | matches

def Pass.run : Pass → List Stage → Except Mismatch (List Stage)
  | .whole, stages => reorder stages
  | .sorts, stages => .ok (consolidateSort stages)
  | .pages, stages => .ok (relocateProjection (relocatePage stages))
  | .matches, stages => consolidateMatch stages

end Pipeline

end QueryPipeline
