import QueryPipeline.Value.Same

namespace QueryPipeline

/-- Why a value does not have the shape that is wanted of it. -/
inductive Mismatch where
  | notMap
  | notText
  | notList
  | notIterable
  | notIndexed
  | notAddable
  | notHashable
  | notOrdered
  | notDocumentKey
  | keywordTaken
  | notJoinable
  | notPattern
  /-- an answer that is there at once was awaited -/
  | notAwaitable
  | tooManyParts
  | notPair
  | unknownType
  | notInteger
  | outOfRange
  | missing (key : String)
deriving DecidableEq

namespace Value

/-- The items of a value: of a list its items, of text its characters, of a map its keys. -/
def items : Value → Except Mismatch (List Value)
  | .list items => .ok items
  | .text s => .ok (s.toList.map fun c => .text (String.ofList [c]))
  | .map entries => .ok (entries.map fun entry => .text entry.1)
  | .keyed entries => .ok (entries.map fun entry => .scalar entry.1)
  | _ => .error .notIterable

def asDict : Value → Except Mismatch Dict
  | .map entries => .ok (.ofEntries entries)
  | .keyed entries => .ok entries
  | _ => .error .notMap

def asText : Value → Except Mismatch String
  | .text s => .ok s
  | _ => .error .notText

def asScalar : Value → Except Mismatch Scalar
  | .scalar s => .ok s
  | _ => .error .notHashable

/-- An item that stands for an entry: its two parts are the key and what stands under it. -/
def asEntry (item : Value) : Except Mismatch (Scalar × Value) := do
  match ← item.items with
  | [key, v] => return (← key.asScalar, v)
  | _ => .error .notPair

/-- The entries of a value: of a map its own, of other items the entries they stand for. -/
def toDict : Value → Except Mismatch Dict
  | .map entries => .ok (.ofEntries entries)
  | .keyed entries => .ok entries
  | v => do
    let pairs ← (← v.items).mapM asEntry
    return Entries.ofList pairs

def insertMember (members : List Scalar) (s : Scalar) : List Scalar :=
  if members.contains s then members else members ++ [s]

def toSet (v : Value) : Except Mismatch (List Scalar) := do
  return (← (← v.items).mapM asScalar).foldl insertMember []

def numberToBinary : Scalar.Number → Except Mismatch Binary64
  | .binary x => .ok x
  | .exact n =>
    let x := Binary64.ofInt n
    if x.isFinite then .ok x else .error .outOfRange

def add : Value → Value → Except Mismatch Value
  | .list xs, .list ys => .ok (.list (xs ++ ys))
  | .text s, .text t => .ok (.text (s ++ t))
  | v, w =>
    match v.number?, w.number? with
    | some (.exact m), some (.exact n) => .ok (.int (m + n))
    | some x, some y => do return .float ((← numberToBinary x).add (← numberToBinary y))
    | _, _ => .error .notAddable

end Value

end QueryPipeline
