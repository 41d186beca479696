import QueryPipeline.Schema.Basic

namespace QueryPipeline

/-- Types of columns. A decorated type behaves on the side of the program in another way than the
type that is stored. -/
inductive ColumnType where
  | text
  | number
  | boolean
  | date
  | json
  | other
  | array (item : ColumnType)
  | decorated (stored : ColumnType)
deriving Inhabited

namespace ColumnType

def plainFieldType : ColumnType → FieldType
  | .array _ => .array
  | .json => .mixed
  | .boolean => .boolean
  | .date => .date
  | .number => .number
  | .text => .string
  | .other => .mixed
  | .decorated _ => .mixed

/-- A decoration is looked through once. -/
def fieldType : ColumnType → FieldType
  | .decorated stored => stored.plainFieldType
  | type => type.plainFieldType

def named : List (String × ColumnType) :=
  [("String", .text), ("Text", .text), ("Unicode", .text), ("UnicodeText", .text),
   ("VARCHAR", .text), ("CHAR", .text),
   ("Integer", .number), ("BigInteger", .number), ("SmallInteger", .number), ("Numeric", .number),
   ("Float", .number), ("Double", .number), ("INTEGER", .number), ("DECIMAL", .number),
   ("REAL", .number),
   ("Boolean", .boolean), ("BOOLEAN", .boolean),
   ("DateTime", .date), ("Date", .date), ("TIMESTAMP", .date), ("Interval", .decorated .date),
   ("JSON", .json),
   ("Time", .other), ("LargeBinary", .other), ("BLOB", .other), ("Uuid", .other),
   ("PickleType", .decorated .other)]

def ofName? (name : String) : Option ColumnType :=
  Entries.get? named name

end ColumnType

inductive RelationshipKind where
  | manyToOne
  | oneToMany
  | manyToMany
deriving DecidableEq

structure Relationship where
  name : String
  target : String
  kind : RelationshipKind
  holdsList : Option Bool

def Relationship.field (r : Relationship) : Field where
  type := if r.holdsList.getD (r.kind ≠ .manyToOne) then .array else .relation
  target := .text r.target

structure Table where
  name : String
  columns : List (String × ColumnType)
  relationships : List Relationship
  translatable : Value
  collection : Option String
  /-- whether the table is meant under another name, as in a query that joins it with itself -/
  aliased : Bool := false

def pluralName (model : String) : String :=
  Text.lowercase model ++ "s"

def Table.collectionName (t : Table) : String :=
  match t.collection with
  | some name => if name = "" then pluralName t.name else name
  | none => pluralName t.name

namespace Schema

def ofTable (t : Table) : Except Mismatch Schema := do
  let fields := t.columns.map (fun column => (column.1, { type := column.2.fieldType })) ++
    t.relationships.map fun r => (r.name, r.field)
  return {
    origin := .model
    modelName := some t.name
    fields := Entries.ofList fields
    translatable := ← (t.translatable.orElse (.list [])).toSet
    collection := some t.collectionName }

end Schema

end QueryPipeline
