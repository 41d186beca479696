import QueryPipeline.Value.Shape

namespace QueryPipeline.Criteria

def isOperator (key : String) : Bool :=
  key.toList.head? = some '$'

def isOperatorDocument (entries : Entries Value) : Bool :=
  !entries.isEmpty && entries.all fun entry => isOperator entry.1

def orClause (alternatives : Value) : Value :=
  .map [("$or", alternatives)]

/-- All entries, when their keys are operators. The keys are asked in their order, up to the first
that is none; what is no text cannot be asked. -/
def readOperators : Dict → Except Mismatch (Option (Entries Value))
  | [] => .ok (some [])
  | (.text key, v) :: rest =>
    if isOperator key then do return (← readOperators rest).map ((key, v) :: ·) else .ok none
  | _ :: _ => .error .notText

def operatorsOf : Value → Except Mismatch (Option (Entries Value))
  | .map entries => .ok (if isOperatorDocument entries then some entries else none)
  | .keyed (entry :: rest) => readOperators (entry :: rest)
  | _ => .ok none

/-- The value of a key that is in both: the union of two documents of operators, else the
later one. The later value is looked at only when the earlier one is such a document. -/
def combine (old new : Value) : Except Mismatch Value := do
  match ← operatorsOf old with
  | none => return new
  | some operators =>
    match ← operatorsOf new with
    | none => return new
    | some more => return .map (Entries.update operators more)

def mergeEntry (target : Dict) (key : Scalar) (value : Value) : Except Mismatch Dict :=
  match Entries.get? target key with
  | none => .ok (Entries.put target key value)
  | some old =>
    if key == "$or" then
      let clauses := [orClause old, orClause value]
      match Entries.get? target "$and" with
      | none => .ok (Entries.put (Entries.erase target "$or") "$and" (.list clauses))
      | some (.list more) =>
        .ok (Entries.put (Entries.erase target "$or") "$and" (.list (more ++ clauses)))
      | some _ => .error .notList
    else if key == "$and" then do return Entries.put target key (← old.add value)
    else do return Entries.put target key (← combine old value)

def merge (target criteria : Dict) : Except Mismatch Dict :=
  criteria.foldlM (fun target entry => mergeEntry target entry.1 entry.2) target

/-- What is merged of `criteria` before the first entry that cannot be. -/
def mergedPart (target : Dict) : Dict → Dict
  | [] => target
  | entry :: rest =>
    match mergeEntry target entry.1 entry.2 with
    | .ok merged => mergedPart merged rest
    | .error _ => target

def mergeAll (all : List Dict) : Except Mismatch Dict :=
  all.foldlM merge []

end QueryPipeline.Criteria
