import QueryPipeline.Clause.Populate
import QueryPipeline.Proofs.Clause.FilterCriteria
import QueryPipeline.Proofs.Clause.Projection

namespace QueryPipeline

/-- Is it a fault of another kind than an invalid query, an invalid value and an unresolved
relation? -/
def Fault.isForeign : Fault → Bool
  | .invalidQuery _ => false
  | .invalidValue .. => false
  | .unresolvedRelation .. => false
  | _ => true

def Value.texts : Value → List String
  | .text s => [s]
  | .list items => items.flatMap fun
    | .text s => [s]
    | _ => []
  | _ => []

/-- The texts that a filter converts, each with the field whose type it gets. -/
def Expression.operands : Expression → List (String × String)
  | .equals field v => v.texts.map fun s => (field, s)
  | .operator field _ v => v.texts.map fun s => (field, s)
  | _ => []

def QueryObject.operands (q : QueryObject) : List (String × String) :=
  q.filters.flatMap Expression.operands

def Schema.NamesModels (schema : Schema) : Prop :=
  ∀ e ∈ schema.fields, e.2.target = .null ∨ ∃ model, e.2.target = .text model

structure Settings.NamesFields (settings : Settings) : Prop where
  hidden : ∃ names : List String, settings.hiddenFields = names.map .text
  sorted : settings.defaultSort = .null ∨ ∃ field, settings.defaultSort = .text field

open Outcome

theorem fault?_values {v : Value} (h : v.Spelled) (field : String) (type : Option FieldType) :
    fault? (Coerce.values field type v) =
      v.texts.findSome? fun s => fault? (Coerce.value field type (.text s)) := by
  cases h with
  | text s =>
    rw [Value.texts, List.findSome?_singleton]
    rfl
  | texts items =>
    have htexts : (Value.list (items.map Value.text)).texts = items := by
      rw [Value.texts, List.flatMap_map]
      exact List.flatMap_singleton' items
    rw [Coerce.values, fault?_bind_pure, fault?_mapM, List.findSome?_map, htexts]
    rfl

namespace Scope

variable (scope : Scope)

def convert (operand : String × String) : Except Fault Value :=
  Coerce.value operand.1 (scope.schema.declaredType? operand.1) (.text operand.2)

def Converts (operand : String × String) : Prop :=
  ∃ v, scope.convert operand = .ok v

/-- Is the text taken for a timestamp, though it is no integer that is read? -/
def Misreads (operand : String × String) : Prop :=
  Coerce.Misread (scope.schema.declaredType? operand.1) operand.2

theorem converts_iff (operand : String × String) :
    fault? (scope.convert operand) = none ↔ scope.Converts operand :=
  fault?_eq_none_iff

theorem misreads_iff (operand : String × String) :
    (∃ f, fault? (scope.convert operand) = some f ∧ f.isForeign = true) ↔
      scope.Misreads operand := by
  have h := Coerce.value_converts operand.1 (scope.schema.declaredType? operand.1) operand.2
  rw [convert, Misreads]
  generalize Coerce.value operand.1 _ _ = result at h
  cases h with
  | scalar t h => simp [h]
  | refused field shown expected h => simp [h, Fault.isForeign]
  | misread h => simp [h, Fault.isForeign]

variable {scope}

theorem fault?_criteria {e : Expression} (h : e.Filters scope.schema) :
    fault? (scope.criteria e) = e.operands.findSome? fun o => fault? (scope.convert o) := by
  rw [criteria, fault?_bind_pure]
  cases h with
  | equals known spelled =>
    rw [condition, fault?_values spelled, Expression.operands, List.findSome?_map]
    rfl
  | operator known listed spelled =>
    rw [condition, fault?_bind_pure, fault?_values spelled, Expression.operands,
      List.findSome?_map]
    rfl
  | regex known s => rfl

theorem fault?_filterStages {q : QueryObject} (h : ∀ e ∈ q.filters, e.Filters scope.schema) :
    fault? (scope.filterStages q) = q.operands.findSome? fun o => fault? (scope.convert o) := by
  rw [filterStages, fault?_mapM, QueryObject.operands]
  generalize q.filters = filters at h
  induction filters with
  | nil => rfl
  | cons e rest ih =>
    obtain ⟨he, hrest⟩ := List.forall_mem_cons.mp h
    rw [List.flatMap_cons, List.findSome?_append, ← fault?_criteria he, ← ih hrest,
      List.findSome?_cons, fault?_bind_pure]
    cases fault? (scope.criteria e) <;> rfl

def Populates (scope : Scope) (e : Expression) : Prop :=
  ∃ key fields, e = .join key (.text fields) ∧
    (scope.schema.relationTarget e.field).truthy = true

/-- Does it ask for them with an object? -/
def Misjoins (scope : Scope) (e : Expression) : Prop :=
  ∃ key entries, e = .join key (.map entries) ∧
    (scope.schema.relationTarget e.field).truthy = true

def populate (scope : Scope) : Expression → Except Fault (List Stage)
  | .join key payload => Populate.joinStages scope (.join key payload) key
  | _ => .ok []

theorem fault?_populateStages (q : QueryObject) :
    fault? (Populate.stages scope q) = q.joins.findSome? fun e => fault? (scope.populate e) := by
  rw [Populate.stages, fault?_bind_pure, fault?_mapM]
  congr
  funext e
  cases e <;> rfl

theorem relationTarget_named (h : scope.schema.NamesModels) (path : String) :
    scope.schema.relationTarget path = .null ∨
      ∃ model, scope.schema.relationTarget path = .text model := by
  rw [Schema.relationTarget]
  split
  · rename_i field hf
    obtain ⟨e, he, _, rfl⟩ := Entries.mem_of_get?_eq_some hf
    exact h e he
  · exact .inl rfl

theorem relationTarget_text (h : scope.schema.NamesModels) {path : String}
    (ht : (scope.schema.relationTarget path).truthy = true) :
    ∃ model, scope.schema.relationTarget path = .text model := by
  rcases relationTarget_named h path with hnull | hmodel
  · rw [hnull] at ht
    cases ht
  · exact hmodel

theorem hidden_ok (h : ∃ names : List String, scope.settings.hiddenFields = names.map .text) :
    ∃ stages, Populate.hidden scope.settings = .ok stages := by
  obtain ⟨names, hnames⟩ := h
  obtain ⟨excluded, hx, _⟩ := Projection.exclusions_spec hnames
  rw [Populate.hidden, hx]
  split <;> exact ⟨_, rfl⟩

section Related

variable {key : String} {payload : Value}

theorem populate_unrelated
    (ht : (scope.schema.relationTarget (Path.dotted key)).truthy = false) :
    scope.populate (.join key payload) =
      .error (.unresolvedRelation scope.schema.modelName key) := by
  have hcollection : Populate.collectionOf scope.schema (.join key payload) key =
      .error (.unresolvedRelation scope.schema.modelName key) := by
    rw [Populate.collectionOf, Expression.field, ht, if_neg Bool.false_ne_true]
  rw [populate, Populate.joinStages, hcollection]
  rfl

theorem collectionOf_related (payload : Value) (hschema : scope.schema.NamesModels)
    (ht : (scope.schema.relationTarget (Path.dotted key)).truthy = true) :
    ∃ collection, Populate.collectionOf scope.schema (.join key payload) key = .ok collection := by
  obtain ⟨model, hm⟩ := relationTarget_text hschema ht
  rw [hm] at ht
  refine ⟨pluralName model, ?_⟩
  rw [Populate.collectionOf, Expression.field, hm, ht, if_pos rfl]
  rfl

theorem populate_fields (hschema : scope.schema.NamesModels)
    (hhidden : ∃ names : List String, scope.settings.hiddenFields = names.map .text)
    (ht : (scope.schema.relationTarget (Path.dotted key)).truthy = true) (fields : String) :
    ∃ stages, scope.populate (.join key (.text fields)) = .ok stages := by
  obtain ⟨collection, hc⟩ := collectionOf_related (.text fields) hschema ht
  obtain ⟨hidden, hh⟩ := hidden_ok hhidden
  have hwanted : ∃ stages, Populate.wanted (.join key (.text fields)) = .ok stages := by
    rw [Populate.wanted]
    split <;> exact ⟨_, rfl⟩
  obtain ⟨wanted, hw⟩ := hwanted
  rw [populate, Populate.joinStages, hc, hw, hh]
  exact ⟨_, rfl⟩

theorem populate_object (hschema : scope.schema.NamesModels)
    (ht : (scope.schema.relationTarget (Path.dotted key)).truthy = true)
    (entries : Entries Value) :
    scope.populate (.join key (.map entries)) = .error (.mismatch .notText) := by
  obtain ⟨collection, hc⟩ := collectionOf_related (.map entries) hschema ht
  have hwildcard : (Expression.join key (.map entries)).isWildcard = false := by
    simp [Expression.isWildcard, Expression.value, Value.same, Value.sameBy]
  have hwanted : Populate.wanted (.join key (.map entries)) = .error .notText := by
    rw [Populate.wanted, hwildcard, if_neg Bool.false_ne_true]
    rfl
  rw [populate, Populate.joinStages, hc, hwanted]
  rfl

end Related

variable {e : Expression}

theorem populates_iff (hschema : scope.schema.NamesModels) (hsettings : scope.settings.NamesFields)
    (h : e.Joins) : fault? (scope.populate e) = none ↔ scope.Populates e := by
  rw [Populates]
  cases h with
  | fields key fields =>
    cases ht : (scope.schema.relationTarget (Path.dotted key)).truthy with
    | true =>
      obtain ⟨stages, hp⟩ := populate_fields hschema hsettings.hidden ht fields
      rw [hp]
      simp [Expression.field, ht]
    | false =>
      rw [populate_unrelated ht]
      simp [Expression.field, ht]
  | object key entries =>
    cases ht : (scope.schema.relationTarget (Path.dotted key)).truthy with
    | true =>
      rw [populate_object hschema ht]
      simp
    | false =>
      rw [populate_unrelated ht]
      simp

theorem misjoins_iff (hschema : scope.schema.NamesModels) (hsettings : scope.settings.NamesFields)
    (h : e.Joins) :
    (∃ f, fault? (scope.populate e) = some f ∧ f.isForeign = true) ↔ scope.Misjoins e := by
  rw [Misjoins]
  cases h with
  | fields key fields =>
    cases ht : (scope.schema.relationTarget (Path.dotted key)).truthy with
    | true =>
      obtain ⟨stages, hp⟩ := populate_fields hschema hsettings.hidden ht fields
      rw [hp]
      simp
    | false =>
      rw [populate_unrelated ht]
      simp [Fault.isForeign]
  | object key entries =>
    cases ht : (scope.schema.relationTarget (Path.dotted key)).truthy with
    | true =>
      rw [populate_object hschema ht]
      simp [Expression.field, ht, Fault.isForeign]
    | false =>
      rw [populate_unrelated ht]
      simp [Expression.field, ht, Fault.isForeign]

end Scope

end QueryPipeline
