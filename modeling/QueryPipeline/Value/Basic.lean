import QueryPipeline.Entries
import QueryPipeline.Value.Scalar

namespace QueryPipeline

/-- The keys of a map are text. Only the documents of stages, and rows, can have keys of other kinds
too, and then they are `keyed`. -/
inductive Value where
  | scalar (s : Scalar)
  | list (items : List Value)
  | map (entries : List (String × Value))
  | keyed (entries : List (Scalar × Value))
deriving Inhabited

abbrev Dict := List (Scalar × Value)

namespace Value

@[match_pattern] abbrev null : Value := .scalar .null

@[match_pattern] abbrev bool (b : Bool) : Value := .scalar (.bool b)

@[match_pattern] abbrev int (n : Int) : Value := .scalar (.int n)

@[match_pattern] abbrev float (x : Binary64) : Value := .scalar (.float x)

@[match_pattern] abbrev text (s : String) : Value := .scalar (.text s)

@[match_pattern] abbrev moment (t : Moment) : Value := .scalar (.moment t)

@[match_pattern] abbrev day (d : Date) : Value := .scalar (.day d)

/-- The values that count as given: null, false, zero and whatever is empty do not. -/
def truthy : Value → Bool
  | .scalar s => s.truthy
  | .list items => !items.isEmpty
  | .map entries => !entries.isEmpty
  | .keyed entries => !entries.isEmpty

def orElse (v fallback : Value) : Value :=
  if v.truthy then v else fallback

def isNull : Value → Bool
  | .null => true
  | _ => false

def isText : Value → Bool
  | .text _ => true
  | _ => false

def typeName : Value → String
  | .scalar s => s.typeName
  | .list _ => "list"
  | .map _ => "dict"
  | .keyed _ => "dict"

def number? : Value → Option Scalar.Number
  | .scalar s => s.number?
  | _ => none

end Value

namespace Dict

def ofEntries (entries : Entries Value) : Dict :=
  entries.map fun entry => (.text entry.1, entry.2)

def entries? : Dict → Option (Entries Value)
  | [] => some []
  | (.text key, v) :: rest => (entries? rest).map ((key, v) :: ·)
  | _ :: _ => none

def toValue (d : Dict) : Value :=
  match entries? d with
  | some entries => .map entries
  | none => .keyed d

end Dict

end QueryPipeline
