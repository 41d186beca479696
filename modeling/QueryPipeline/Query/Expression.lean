import QueryPipeline.Path
import QueryPipeline.Value.Literal
import QueryPipeline.Value.Same

namespace QueryPipeline

inductive Expression where
  | equals (field : String) (value : Value)
  | operator (field operator : String) (value : Value)
  | regex (field : String) (text : Value)
  | join (key : String) (payload : Value)

namespace Expression

/-- The field that is meant: of a join the key, with arrows read as dots. -/
def field : Expression → String
  | .equals field _ => field
  | .operator field _ _ => field
  | .regex field _ => field
  | .join key _ => Path.dotted key

def value : Expression → Value
  | .equals _ value => value
  | .operator _ _ value => value
  | .regex _ text => text
  | .join _ payload => payload

def same : Expression → Expression → Bool
  | .equals f v, .equals g w => f = g && v.same w
  | .operator f o v, .operator g p w => f = g && v.same w && o = p
  | .regex f v, .regex g w => f = g && v.same w
  | .join k v, .join l w => k = l && v.same w
  | _, _ => false

def literal (e : Expression) : String :=
  let parts := ["field=" ++ Text.quoted e.field, "value=" ++ e.value.literal]
  match e with
  | .equals .. => "EqualsExpression(" ++ commaSeparated parts ++ ")"
  | .operator _ op _ =>
    "OperatorExpression(" ++ commaSeparated (parts ++ ["operator=" ++ Text.quoted op]) ++ ")"
  | .regex .. => "RegexExpression(" ++ commaSeparated parts ++ ")"
  | .join key _ =>
    "JoinExpression(" ++ commaSeparated (parts ++ ["key=" ++ Text.quoted key]) ++ ")"

def isWildcard (e : Expression) : Bool :=
  e.value.same (.text "*")

end Expression

/-- The parameters of a query, classified: what controls the other operations, what filters, and
what joins, each in the order of the query. -/
structure QueryObject where
  control : Entries Value
  filters : List Expression
  joins : List Expression

namespace QueryObject

def controlValue (q : QueryObject) (name : String) : Value :=
  (Entries.get? q.control name).getD .null

def controlText (q : QueryObject) (name : String) : String :=
  match q.controlValue name with
  | .text s => s
  | _ => ""

def literal (q : QueryObject) : String :=
  let expressions (es : List Expression) := "[" ++ commaSeparated (es.map Expression.literal) ++ "]"
  "QueryObject(control=" ++ (Value.map q.control).literal ++
    ", filters=" ++ expressions q.filters ++ ", joins=" ++ expressions q.joins ++ ")"

end QueryObject

end QueryPipeline
