import QueryPipeline.Clause.Filter
import QueryPipeline.Text.Blank

namespace QueryPipeline

def relevanceField : String := "relevance"

structure Search where
  text : String
  fields : List String
  /-- the direction of a sort by the score -/
  direction : Option Int

namespace Search

def fieldNames : List Value → Except Mismatch (List String)
  | [] => .ok []
  | v :: rest =>
    if v.truthy then do
      let name := Text.strip (← v.asText).toList
      let names ← fieldNames rest
      return if name = [] then names else String.ofList name :: names
    else fieldNames rest

def fieldsOf : Value → Except Mismatch (List String)
  | .text s => fieldNames ((Text.splitOn ';' s.toList).map fun piece => .text (String.ofList piece))
  | v => do fieldNames (← (v.orElse (.list [])).items)

def directionOf (sort : String) : Option Int :=
  let tokens := (Text.splitOn ';' sort.toList).map Text.strip
  if tokens.contains ('-' :: relevanceField.toList) then some (-1)
  else if tokens.contains relevanceField.toList then some 1
  else none

def read (q : QueryObject) (fields : Value) : Except Mismatch Search := do
  return {
    text := q.controlText "search"
    fields := ← fieldsOf fields
    direction := directionOf (q.controlText "sort") }

def isGiven (s : Search) : Bool :=
  s.text ≠ "" && !s.fields.isEmpty

def unsearchable? (scope : Scope) (s : Search) : Option String :=
  if s.isGiven then s.fields.find? fun field => !scope.schema.isString field else none

def isApplicable (scope : Scope) (s : Search) : Bool :=
  s.isGiven && (s.unsearchable? scope).isNone

def paths (scope : Scope) (s : Search) : List String :=
  s.fields.flatMap scope.queryPaths

/-- The pattern that matches exactly the text, and the option to match it in any case. -/
def pattern (s : Search) : Value := .text (Text.escapePattern s.text)

def options : Value := .text "i"

def alternative (s : Search) (path : String) : Value :=
  .map [(path, .map [("$regex", s.pattern), ("$options", options)])]

def term (s : Search) (path : String) (weight : Nat) : Value :=
  .map [("$cond", .map
    [("if", .map [("$regexMatch", .map
      [("input", .text ("$" ++ path)), ("regex", s.pattern), ("options", options)])]),
     ("then", .int (-weight)),
     ("else", .int 0)])]

/-- The terms of the score. The first of `n` paths weighs `n`, the last one weighs 1. -/
def terms (s : Search) : List String → List Value
  | [] => []
  | path :: rest => s.term path (rest.length + 1) :: terms s rest

def stages (scope : Scope) (s : Search) : List Stage :=
  if s.isApplicable scope then
    [.matching [("$or", .list ((s.paths scope).map s.alternative))],
     .addFields [(relevanceField, .map [("$sum", .list (s.terms (s.paths scope)))])]] ++
    (match s.direction with
    | some direction => [.sort [(relevanceField, .int direction)]]
    | none => [])
  else []

end Search

end QueryPipeline
