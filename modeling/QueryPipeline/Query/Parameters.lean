import QueryPipeline.Fault

namespace QueryPipeline

def controlKeys : List String :=
  ["search", "page", "sort", "limit", "skip", "fields", "populate", "lang"]

def textControlKeys : List String :=
  ["search", "sort", "fields", "lang"]

def operatorSuffixes : List (String × String) :=
  [("gte", "$gte"), ("gt", "$gt"), ("lte", "$lte"), ("lt", "$lt"), ("ne", "$ne"), ("in", "$in"),
   ("nin", "$nin")]

def listOperators : List String :=
  ["$in", "$nin"]

def regexMarker : String := "s"

def joinMarker : String := "p"

def isMarker (key : String) : Bool :=
  key = regexMarker || key = joinMarker

mutual

/-- The paths and values of a parameter. An object with a marker as its first key is kept whole, and
an empty object is dropped. -/
def flatten (key : String) : Value → List (String × Value)
  | .map [] => []
  | .map ((first, v) :: rest) =>
    if isMarker first then [(key, .map ((first, v) :: rest))]
    else flatten (Path.under key first) v ++ flattenEntries key rest
  | v => [(key, v)]

def flattenEntries (key : String) : List (String × Value) → List (String × Value)
  | [] => []
  | (k, v) :: rest => flatten (Path.under key k) v ++ flattenEntries key rest

end

inductive Parameter where
  | control (key : String) (value : Value)
  | field (path : String) (value : Value)
  | unnamed

/-- The parameters of an entry. A key that is no text is good only for leading into an object. -/
def entryParameters : Scalar → Value → List Parameter
  | .text key, v =>
    if controlKeys.contains key then [.control key v]
    else (flatten key v).map fun leaf => .field leaf.1 leaf.2
  | _, .map [] => []
  | key, .map ((first, v) :: rest) =>
    if isMarker first then [.unnamed]
    else (flattenEntries key.plain ((first, v) :: rest)).map fun leaf => .field leaf.1 leaf.2
  | _, _ => [.unnamed]

def parameters (query : Dict) : List Parameter :=
  query.flatMap fun entry => entryParameters entry.1 entry.2

inductive Reading where
  | control (key : String) (value : Value)
  | filter (expression : Expression)
  | join (expression : Expression)
  | unknown (field : String)

/-- A control parameter is a scalar, and some have to be text. -/
def readControl (key : String) (value : Value) : Except QueryFault Reading :=
  if textControlKeys.contains key && !value.isNull && !value.isText then
    .error (.controlNotText key value.typeName)
  else
    match value with
    | .map _ => .error (.controlNotScalar key value.typeName)
    | .keyed _ => .error (.controlNotScalar key value.typeName)
    | .list _ => .error (.controlNotScalar key value.typeName)
    | _ => .ok (.control key value)

/-- A marker may be the last segment of a path: its value is then put under the marker. -/
def rewrap (path : String) : Value → String × Value
  | .map entries => (path, .map entries)
  | v =>
    match Path.splitLast? path with
    | some (field, suffix) => if isMarker suffix then (field, .map [(suffix, v)]) else (path, v)
    | none => (path, v)

def marked? (marker : String) : Value → Option Value
  | .map entries => Entries.get? entries marker
  | _ => none

/-- The fields to load with a join; a list of texts is joined by semicolons, and nothing is
everything. -/
def payloadOf : Value → Except Mismatch Value
  | .list items => do
    let texts ← items.mapM fun
      | .text s => .ok s
      | _ => .error .notJoinable
    return (Value.text (String.intercalate ";" texts)).orElse (.text "*")
  | v => .ok (v.orElse (.text "*"))

/-- Of a join only the first relation has to be known. -/
def readJoin (schema : Schema) (path : String) (payload : Value) : Except Fault Reading :=
  if schema.hasField (Path.root path) then do
    return .join (.join path (← Mismatch.lift (payloadOf payload)))
  else .ok (.unknown (Path.root path))

def operatorOf? (path : String) : Option (String × String × String) :=
  match Path.splitLast? path with
  | some (field, suffix) =>
    (Entries.get? operatorSuffixes suffix).map fun operator => (field, suffix, operator)
  | none => none

def listOf : Value → Value
  | .list items => .list items
  | v => .list ((Text.splitOn ';' v.plain.toList).map fun piece => .text (String.ofList piece))

def readOperator (schema : Schema) (field suffix operator : String) (value : Value) :
    Except Fault Reading :=
  if schema.hasField field then
    match value with
    | .map _ => .error (.invalidQuery (.operandIsMap suffix field))
    | .keyed _ => .error (.invalidQuery (.operandIsMap suffix field))
    | _ =>
      .ok (.filter (.operator field operator
        (if listOperators.contains operator then listOf value else value)))
  else .ok (.unknown field)

def readPlain (schema : Schema) (field : String) (value : Value) : Except Fault Reading :=
  if schema.hasField field then
    match value with
    | .map entries =>
      match Entries.get? entries regexMarker with
      | none => .error (.invalidQuery (.noMarker field))
      | some (.text s) => .ok (.filter (.regex field (.text s)))
      | some _ => .error (.invalidQuery (.patternNotText field))
    | .keyed _ => .error (.invalidQuery (.noMarker field))
    | _ => .ok (.filter (.equals field value))
  else .ok (.unknown field)

/-- A join marker comes before an operator, and an operator before everything else. -/
def classify (schema : Schema) (path : String) (value : Value) : Except Fault Reading :=
  let (path, value) := rewrap path value
  match marked? joinMarker value with
  | some payload => readJoin schema path payload
  | none =>
    match operatorOf? path with
    | some (field, suffix, operator) =>
      readOperator schema (Path.dotted field) suffix operator value
    | none => readPlain schema (Path.dotted path) value

namespace Parameter

def read (schema : Schema) : Parameter → Except Fault Reading
  | .control key value => (readControl key value).mapError .invalidQuery
  | .field path value => classify schema path value
  | .unnamed => .error (.mismatch .notText)

end Parameter

namespace Reading

def control? : Reading → Option (String × Value)
  | .control key value => some (key, value)
  | _ => none

def filter? : Reading → Option Expression
  | .filter e => some e
  | _ => none

def join? : Reading → Option Expression
  | .join e => some e
  | _ => none

def unknown? : Reading → Option String
  | .unknown field => some field
  | _ => none

end Reading

namespace QueryObject

def ofReadings (readings : List Reading) : QueryObject where
  control := readings.filterMap Reading.control?
  filters := readings.filterMap Reading.filter?
  joins := readings.filterMap Reading.join?

def parse (schema : Schema) (query : Dict) : Except Fault QueryObject := do
  return ofReadings (← (parameters query).mapM (Parameter.read schema))

def parseValue (schema : Schema) (query : Value) : Except Fault QueryObject := do
  parse schema (← Mismatch.lift (query.orElse (.map [])).asDict)

end QueryObject

def droppedBefore (schema : Schema) : List Parameter → List String
  | [] => []
  | p :: rest =>
    match p.read schema with
    | .ok reading => reading.unknown?.toList ++ droppedBefore schema rest
    | .error _ => []

def droppedFields (schema : Schema) (query : Dict) : List String :=
  droppedBefore schema (parameters query)

end QueryPipeline
