import Mathlib.Logic.Function.Iterate
import QueryPipeline.Proofs.Clause.DeclaredType
import QueryPipeline.Proofs.Entries
import QueryPipeline.Proofs.Schema.KnownPaths
import QueryPipeline.Schema.Table

namespace QueryPipeline

namespace ColumnType

def bare : ColumnType → ColumnType
  | .decorated stored => stored.bare
  | type => type

/-- The number of decorations around the bare type. Those of the items of an array do not count. -/
def decorations : ColumnType → Nat
  | .decorated stored => stored.decorations + 1
  | _ => 0

@[simp] theorem bare_decorated (type : ColumnType) : (decorated type).bare = type.bare := rfl

@[simp] theorem decorations_decorated (type : ColumnType) :
    (decorated type).decorations = type.decorations + 1 := rfl

@[simp] theorem decorations_bare (type : ColumnType) : type.bare.decorations = 0 := by
  induction type with
  | decorated stored ih => exact ih
  | _ => rfl

/-- A type is its bare type with the decorations around it. -/
theorem iterate_decorated_bare (type : ColumnType) :
    decorated^[type.decorations] type.bare = type := by
  induction type with
  | decorated stored ih =>
    rw [decorations_decorated, bare_decorated, Function.iterate_succ_apply', ih]
  | _ => rfl

theorem fieldType_of_decorations_eq_zero {type : ColumnType} (h : type.decorations = 0) :
    type.fieldType = type.plainFieldType := by
  cases type with
  | decorated stored => cases h
  | _ => rfl

/-- One decoration shows the field of the type that it is around, more of them hide it. -/
theorem fieldType_iterate_decorated {type : ColumnType} (h : type.decorations = 0) (n : Nat) :
    (decorated^[n] type).fieldType = if n ≤ 1 then type.plainFieldType else .mixed := by
  match n with
  | 0 => exact fieldType_of_decorations_eq_zero h
  | 1 => rfl
  | n + 2 =>
    -- What the outer decoration shows is a decoration again, which is no plain type.
    rw [Function.iterate_succ_apply', Function.iterate_succ_apply']
    exact (if_neg (by omega)).symm

theorem fieldType_eq (type : ColumnType) :
    type.fieldType = if type.decorations ≤ 1 then type.bare.plainFieldType else .mixed := by
  calc type.fieldType = (decorated^[type.decorations] type.bare).fieldType := by
        rw [iterate_decorated_bare]
    _ = if type.decorations ≤ 1 then type.bare.plainFieldType else .mixed :=
        fieldType_iterate_decorated type.decorations_bare _

/-- One more decoration keeps the type of the field, except around a type that is decorated once and
stores what is not mixed anyway: the second decoration hides it. -/
theorem fieldType_decorated_iff (type : ColumnType) :
    ((decorated type).fieldType = type.fieldType ↔
      type.decorations ≠ 1 ∨ type.bare.plainFieldType = .mixed) ∧
    (type.decorations = 1 →
      type.fieldType = type.bare.plainFieldType ∧ (decorated type).fieldType = .mixed) := by
  rw [fieldType_eq (decorated type), fieldType_eq type, decorations_decorated, bare_decorated]
  obtain h | h | h : type.decorations = 0 ∨ type.decorations = 1 ∨ 2 ≤ type.decorations := by omega
  · simp [h]
  · simp [h, eq_comm]
  · have hfirst : ¬type.decorations ≤ 1 := by omega
    have hsecond : ¬type.decorations + 1 ≤ 1 := by omega
    have hne : type.decorations ≠ 1 := by omega
    simp [hfirst, hsecond, hne]

/-- An interval is stored as a date. Decorated again, it is no date any more. -/
theorem fieldType_decorated_interval :
    ∃ interval, ofName? "Interval" = some interval ∧ interval.fieldType = .date ∧
      (decorated interval).fieldType = .mixed ∧
      ¬∀ type : ColumnType, (decorated type).fieldType = type.fieldType := by
  refine ⟨.decorated .date, rfl, rfl, rfl, fun h => ?_⟩
  have hinterval : FieldType.mixed = .date := h (.decorated .date)
  cases hinterval

end ColumnType

def Table.described (table : Table) : Entries Field :=
  table.columns.map (fun column => (column.1, { type := column.2.fieldType })) ++
    table.relationships.map fun r => (r.name, r.field)

namespace Schema

variable {table : Table} {schema : Schema} {name : String} {type : ColumnType}

theorem fields_ofTable (h : ofTable table = .ok schema)
    (hnames : Entries.Distinct table.described) : schema.fields = table.described := by
  obtain ⟨translatable, _, hschema⟩ := Outcome.bind_eq_ok_iff.mp h
  cases hschema
  exact Entries.update_of_distinct hnames

theorem declaredType?_ofTable (h : ofTable table = .ok schema)
    (hnames : Entries.Distinct table.described) (hcolumn : (name, type) ∈ table.columns) :
    schema.declaredType? name = some type.fieldType := by
  have hmem : (name, { type := type.fieldType }) ∈ table.described :=
    List.mem_append_left _ (List.mem_map_of_mem hcolumn)
  rw [declaredType?, fields_ofTable h hnames, hnames.get?_eq_some hmem (beq_self_eq_true name)]
  rfl

structure Opens (schema : Schema) (name : String) : Prop where
  known {path : String} (h : schema.Encloses path name) : schema.hasField path = true
  taken (v : Value) : Coerce.values name (schema.declaredType? name) v = .ok v

theorem opens_of_mixed (h : schema.declaredType? name = some .mixed) : schema.Opens name where
  known hencloses := hasField_iff.mpr (.inr (.inr (.inr ⟨name, hencloses, h⟩)))
  taken v := by
    rw [h]
    cases v with
    | list items =>
      exact Coerce.values_list_ok_iff.mpr ⟨items, rfl, List.forall₂_same.mpr fun _ _ => rfl⟩
    | _ => rfl

/-- A column decorated twice gives an open field, whatever it stores. -/
theorem opens_of_two_le_decorations (h : ofTable table = .ok schema)
    (hnames : Entries.Distinct table.described) (hcolumn : (name, type) ∈ table.columns)
    (htwice : 2 ≤ type.decorations) : schema.Opens name := by
  apply opens_of_mixed
  rw [declaredType?_ofTable h hnames hcolumn, ColumnType.fieldType_eq, if_neg (by omega)]

example :
    let interval := ColumnType.decorated .date
    let table : Table :=
      { name := "Shift", columns := [("lasts", interval), ("pauses", .decorated interval)],
        relationships := [], translatable := .null, collection := none }
    (ofTable table).toOption.map
      (fun schema => (schema.hasField "lasts.start", schema.hasField "pauses.start")) =
        some (false, true) := by
  decide

end Schema

end QueryPipeline
