import QueryPipeline.Path
import QueryPipeline.Text.Lowercase
import QueryPipeline.Value.Shape

namespace QueryPipeline

/-- Declared types. A field of type `mixed` may hold anything, also further fields. -/
inductive FieldType where
  | string
  | number
  | date
  | boolean
  | array
  | relation
  | mixed
deriving DecidableEq

namespace FieldType

def name : FieldType → String
  | .string => "String"
  | .number => "Number"
  | .date => "Date"
  | .boolean => "Boolean"
  | .array => "Array"
  | .relation => "Relation"
  | .mixed => "Mixed"

def all : List FieldType :=
  [.string, .number, .date, .boolean, .array, .relation, .mixed]

def ofName? (s : String) : Option FieldType :=
  all.find? fun type => type.name = s

def ofValue : Value → Except Mismatch FieldType
  | .text s =>
    match ofName? s with
    | some type => .ok type
    | none => .error .unknownType
  | _ => .error .unknownType

end FieldType

structure Field where
  type : FieldType
  target : Value := .null

namespace Field

def ofValue : Value → Except Mismatch Field
  | .list [] => .error .notPair
  | .list (type :: parts) => do
    let type ← FieldType.ofValue type
    match parts with
    | [] => return { type }
    | [target] => return { type, target }
    | _ => .error .tooManyParts
  | v => do return { type := ← FieldType.ofValue v }

end Field

inductive SchemaOrigin where
  | mapping
  | model
deriving DecidableEq

structure Schema where
  origin : SchemaOrigin
  modelName : Option String
  fields : Entries Field
  translatable : List Scalar
  collection : Option String

namespace Schema

def ofMapping (fields : Entries Value) (translatable : Value) (modelName : Option String) :
    Except Mismatch Schema := do
  let fields ← (Entries.ofList fields).mapM fun entry => do
    return (entry.1, ← Field.ofValue entry.2)
  let translatable ← (translatable.orElse (.list [])).toSet
  return {
    origin := .mapping
    modelName
    fields
    translatable
    collection := none }

def modelText (s : Schema) : String :=
  s.modelName.getD "None"

def describe (s : Schema) : String :=
  (match s.origin with
  | .mapping => "DictSchema("
  | .model => "ModelSchema(") ++ s.modelText ++ ")"

def declaredType? (s : Schema) (path : String) : Option FieldType :=
  (Entries.get? s.fields path).map Field.type

def relationTarget (s : Schema) (path : String) : Value :=
  match Entries.get? s.fields path with
  | some field => field.target
  | none => .null

def declares (s : Schema) (path : String) : Bool :=
  Entries.has s.fields path

def isTranslatable (s : Schema) (path : String) : Bool :=
  s.translatable.contains (.text path)

def isString (s : Schema) (path : String) : Bool :=
  s.declaredType? path = some .string

def withinMixed (s : Schema) (path : String) : Bool :=
  match (Path.ancestors path).find? s.declares with
  | some ancestor => s.declaredType? ancestor = some .mixed
  | none => false

/-- A path is known when it is declared or translatable, when a declared path lies within it, or
when it lies within a mixed field. -/
def hasField (s : Schema) (path : String) : Bool :=
  s.declares path || s.isTranslatable path ||
    (Entries.keys s.fields).any (Path.isWithin path) || s.withinMixed path

end Schema

end QueryPipeline
