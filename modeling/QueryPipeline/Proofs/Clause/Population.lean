import QueryPipeline.Proofs.Clause.Faults
import QueryPipeline.Proofs.Clause.ProjectionModes

namespace QueryPipeline

namespace Populate

/-- The part of a lookup's pipeline that a payload asks for. -/
inductive Selects : String → List Stage → Prop where
  | everything : Selects "*" []
  | fields {payload : String} {projection : Dict} (listed : payload ≠ "*")
    (binary : ∀ e ∈ projection, e.2 = .int 1 ∨ e.2 = .int 0)
    (oneMode : ∀ key other : Scalar, (key, .int 1) ∈ projection → (other, .int 0) ∈ projection →
      key = "_id" ∨ other = "_id") : Selects payload [.project projection]

inductive Hides (hidden : List Scalar) : List Stage → Prop where
  | nothing (none : hidden = []) : Hides hidden []
  | fields {names : List Scalar} (some : hidden ≠ []) (all : names.Perm hidden) :
    Hides hidden [.project (names.map fun name => (name, .int 0))]

/-- The two stages of a join whose field refers to a model: a missing reference becomes an empty
one, and the documents that it means are looked up into the field. -/
inductive Loads (scope : Scope) : Expression → List Stage → Prop where
  | lookup {key payload model correlation : String} {selected covered : List Stage}
    (target : scope.schema.relationTarget (Path.dotted key) = .text model) (named : model ≠ "")
    (correlates : correlation =
      if scope.schema.declaredType? (Path.dotted key) = some .array then "$in" else "$eq")
    (selects : Selects payload selected) (hides : Hides scope.settings.hiddenFields covered) :
    Loads scope (.join key (.text payload))
      [.addFields [(.text (Path.dotted key),
        .map [("$ifNull", .list [.text ("$" ++ Path.dotted key), .list []])])],
      .lookup (.text (Text.lowercase model ++ "s")) (.text (Path.dotted key))
        (some [("localFieldValue", .text ("$" ++ Path.dotted key))])
        (.matching [("$expr",
          .map [(correlation, .list [.text "$_id", .text "$$localFieldValue"])])] ::
            (selected ++ covered)) .null .null]

def Unrelated (schema : Schema) (join : Expression) : Prop :=
  schema.relationTarget join.field = .null ∨ schema.relationTarget join.field = .text ""

variable {scope : Scope} {key payload : String} {stages : List Stage}

theorem isWildcard_iff :
    (Expression.join key (.text payload)).isWildcard = true ↔ payload = "*" := by
  simp [Expression.isWildcard, Expression.value, Value.same, Value.sameBy, Scalar.sameBy]

theorem selects_wanted (h : wanted (.join key (.text payload)) = .ok stages) :
    Selects payload stages := by
  rw [wanted] at h
  split at h
  · rename_i hall
    cases isWildcard_iff.mp hall
    cases h
    exact .everything
  · rename_i hlisted
    cases h
    apply Selects.fields (fun hall => hlisted (isWildcard_iff.mpr hall))
    · exact Projection.binary_toDict
    · intro key other hkey hother
      exact Projection.settle_oneMode (Projection.mem_toDict_one.mp hkey)
        (Projection.mem_toDict_zero.mp hother)

theorem hides_hidden {settings : Settings} (h : hidden settings = .ok stages) :
    Hides settings.hiddenFields stages := by
  rw [hidden] at h
  split at h
  · cases h
    exact .nothing (List.isEmpty_iff.mp ‹_›)
  · rename_i hsome
    obtain ⟨excluded, hx, h⟩ := Outcome.bind_eq_ok_iff.mp h
    obtain ⟨sorted, hsorted, hx⟩ := Outcome.bind_eq_ok_iff.mp hx
    cases hx
    cases h
    rw [Projection.toDict, List.map_map]
    apply Hides.fields
    · exact fun hnone => hsome (List.isEmpty_iff.mpr hnone)
    · exact Scalar.ascending_perm hsorted

theorem populate_eq_ok {payload : Value} (h : scope.populate (.join key payload) = .ok stages) :
    ∃ collection selected covered,
      collectionOf scope.schema (.join key payload) key = .ok collection ∧
      wanted (.join key payload) = .ok selected ∧ hidden scope.settings = .ok covered ∧
      stages = [
        .addFields [(.text (Path.dotted key),
          .map [("$ifNull", .list [.text ("$" ++ Path.dotted key), .list []])])],
        .lookup (.text collection) (.text (Path.dotted key))
          (some [(.text referenceVariable, .text ("$" ++ Path.dotted key))])
          (correlationStage scope.schema (Path.dotted key) :: selected ++ covered)
          .null .null] := by
  rw [Scope.populate, joinStages] at h
  obtain ⟨collection, hcollection, h⟩ := Outcome.bind_eq_ok_iff.mp h
  obtain ⟨selected, hselected, h⟩ := Outcome.bind_eq_ok_iff.mp h
  obtain ⟨covered, hcovered, h⟩ := Outcome.bind_eq_ok_iff.mp h
  cases h
  exact ⟨collection, selected, covered, hcollection, Outcome.lift_eq_ok_iff.mp hselected,
    Outcome.lift_eq_ok_iff.mp hcovered, rfl⟩

theorem loads_of_populate (hschema : scope.schema.NamesModels)
    (h : scope.populate (.join key (.text payload)) = .ok stages) :
    Loads scope (.join key (.text payload)) stages := by
  obtain ⟨collection, selected, covered, hcollection, hselected, hcovered, rfl⟩ := populate_eq_ok h
  rw [collectionOf, Expression.field] at hcollection
  split at hcollection
  · rename_i hrelated
    obtain ⟨model, hm⟩ := Scope.relationTarget_text hschema hrelated
    rw [hm] at hcollection hrelated
    cases hcollection
    apply Loads.lookup hm (of_decide_eq_true hrelated) rfl
    · exact selects_wanted hselected
    · exact hides_hidden hcovered
  · cases hcollection

theorem unrelated_iff (hschema : scope.schema.NamesModels) (join : Expression) :
    Unrelated scope.schema join ↔ (scope.schema.relationTarget join.field).truthy = false := by
  constructor
  · intro h
    rcases h with h | h
    · rw [h]
      rfl
    · rw [h]
      rfl
  · intro h
    rcases Scope.relationTarget_named hschema join.field with hnull | ⟨model, hmodel⟩
    · exact .inl hnull
    · refine .inr (hmodel.trans ?_)
      rw [hmodel] at h
      exact congrArg Value.text (of_not_not (of_decide_eq_false h))

theorem fault?_populate (hschema : scope.schema.NamesModels)
    (hhidden : ∃ names : List String, scope.settings.hiddenFields = names.map .text) :
    Outcome.fault? (scope.populate (.join key (.text payload))) =
      if (scope.schema.relationTarget (Path.dotted key)).truthy then none
      else some (.unresolvedRelation scope.schema.modelName key) := by
  cases ht : (scope.schema.relationTarget (Path.dotted key)).truthy with
  | true =>
    obtain ⟨stages, hstages⟩ := Scope.populate_fields hschema hhidden ht payload
    rw [hstages, Outcome.fault?_ok, if_pos rfl]
  | false =>
    rw [Scope.populate_unrelated ht, Outcome.fault?_error, if_neg Bool.false_ne_true]

theorem stages_eq (scope : Scope) (q : QueryObject) :
    Populate.stages scope q = List.flatten <$> q.joins.mapM scope.populate := by
  rw [Populate.stages, bind_pure_comp]
  congr
  funext e
  cases e <;> rfl

section Stages

variable {q : QueryObject} (hschema : scope.schema.NamesModels)
  (hhidden : ∃ names : List String, scope.settings.hiddenFields = names.map .text)
  (hjoins : ∀ e ∈ q.joins, ∃ key payload : String, e = .join key (.text payload))

include hschema hhidden hjoins

/-- The fault of a query is that of its first join whose field refers to no model. -/
theorem stages_eq_error_iff {f : Fault} :
    Populate.stages scope q = .error f ↔
      Outcome.FirstBad (fun e => ¬Unrelated scope.schema e)
        (fun e => Unrelated scope.schema e ∧ ∃ key payload, e = .join key payload ∧
          f = .unresolvedRelation scope.schema.modelName key) q.joins := by
  have hpasses : ∀ e ∈ q.joins,
      Outcome.fault? (scope.populate e) = none ↔ ¬Unrelated scope.schema e := by
    intro e he
    obtain ⟨key, payload, rfl⟩ := hjoins e he
    rw [fault?_populate hschema hhidden, unrelated_iff hschema, Expression.field]
    simp
  have hbad : ∀ e ∈ q.joins, (∃ f', Outcome.fault? (scope.populate e) = some f' ∧ f' = f) ↔
      Unrelated scope.schema e ∧ ∃ key payload, e = .join key payload ∧
        f = .unresolvedRelation scope.schema.modelName key := by
    intro e he
    obtain ⟨key, payload, rfl⟩ := hjoins e he
    rw [exists_eq_right, fault?_populate hschema hhidden, unrelated_iff hschema, Expression.field]
    cases (scope.schema.relationTarget (Path.dotted key)).truthy with
    | true => simp
    | false =>
      rw [if_neg Bool.false_ne_true, Option.some_inj]
      constructor
      · intro h
        exact ⟨rfl, key, _, rfl, h.symm⟩
      · intro h
        obtain ⟨_, _, _, hjoin, hf⟩ := h
        cases hjoin
        exact hf.symm
  rw [← Outcome.findSome?_iff_firstBad q.joins hpasses hbad, ← Scope.fault?_populateStages]
  simp [Outcome.fault?_eq_some_iff]

theorem stages_eq_ok (hrelated : ∀ e ∈ q.joins, ¬Unrelated scope.schema e) :
    ∃ parts, List.Forall₂ (Loads scope) q.joins parts ∧
      Populate.stages scope q = .ok parts.flatten := by
  have hstages := stages_eq scope q
  cases hparts : q.joins.mapM scope.populate with
  | error f =>
    rw [hparts] at hstages
    obtain ⟨_, e, _, hq, _, hunrelated, _⟩ :=
      (stages_eq_error_iff hschema hhidden hjoins).mp hstages
    exact absurd hunrelated (hrelated e (by simp [hq]))
  | ok parts =>
    rw [hparts] at hstages
    refine ⟨parts, ?_, hstages⟩
    have hmade := (List.forall₂_and_left _ _).mpr ⟨hjoins, Outcome.mapM_eq_ok_iff.mp hparts⟩
    apply hmade.imp
    intro e part h
    obtain ⟨⟨key, payload, rfl⟩, hpart⟩ := h
    exact loads_of_populate hschema hpart

/-- Populating fails with the first join whose field refers to no model, whatever comes behind it;
without such a join it makes the stages of each join in turn. -/
theorem stages_loads :
    (∀ f, Populate.stages scope q = .error f ↔
      ∃ before key payload after, q.joins = before ++ .join key payload :: after ∧
        (∀ e ∈ before, ¬Unrelated scope.schema e) ∧ Unrelated scope.schema (.join key payload) ∧
          f = .unresolvedRelation scope.schema.modelName key) ∧
      ((∀ e ∈ q.joins, ¬Unrelated scope.schema e) →
        ∃ parts, List.Forall₂ (Loads scope) q.joins parts ∧
          Populate.stages scope q = .ok parts.flatten) := by
  constructor
  · intro f
    rw [stages_eq_error_iff hschema hhidden hjoins]
    constructor
    · intro h
      obtain ⟨before, _, after, hq, hbefore, hunrelated, key, payload, rfl, hf⟩ := h
      exact ⟨before, key, payload, after, hq, hbefore, hunrelated, hf⟩
    · intro h
      obtain ⟨before, key, payload, after, hq, hbefore, hunrelated, hf⟩ := h
      exact ⟨before, _, after, hq, hbefore, hunrelated, key, payload, rfl, hf⟩
  · exact stages_eq_ok hschema hhidden hjoins

end Stages

theorem stages_loads_authors :
    let schema : Schema :=
      { origin := .mapping, modelName := some "Item"
        fields := [("author.friends", { type := .array, target := .text "User" }),
          ("owner", { type := .relation, target := .text "Person" }), ("name", { type := .string })]
        translatable := [], collection := none }
    let scope : Scope :=
      { schema, settings := { hiddenFields := ["password", "email"] }, asked := none }
    let related : List Expression :=
      [.join "author->friends" (.text "name;-email; ;+phone"), .join "owner" (.text "*")]
    let q : QueryObject := { control := [], filters := [], joins := related }
    let q' : QueryObject :=
      { q with joins := related ++ [.join "name" (.text "*"), .join "x" (.text "*")] }
    (∃ parts, List.Forall₂ (Loads scope) q.joins parts ∧
        Populate.stages scope q = .ok parts.flatten) ∧
      Populate.stages scope q' = .error (.unresolvedRelation (some "Item") "name") := by
  intro schema scope related q q'
  have hschema : scope.schema.NamesModels := by
    intro e he
    simp only [scope, schema, List.mem_cons, List.not_mem_nil, or_false] at he
    rcases he with rfl | rfl | rfl
    · exact .inr ⟨"User", rfl⟩
    · exact .inr ⟨"Person", rfl⟩
    · exact .inl rfl
  have hhidden : ∃ names : List String, scope.settings.hiddenFields = names.map .text :=
    ⟨["password", "email"], rfl⟩
  have hjoins : ∀ e ∈ q'.joins, ∃ key payload : String, e = .join key (.text payload) := by
    simp [q', related]
  have hrelated : ∀ e ∈ related, ¬Unrelated scope.schema e := by
    intro e he
    rw [unrelated_iff hschema, Bool.not_eq_false]
    simp only [related, List.mem_cons, List.not_mem_nil, or_false] at he
    rcases he with rfl | rfl
    · rfl
    · rfl
  constructor
  · apply (stages_loads (q := q) hschema hhidden ?_).2 hrelated
    exact fun e he => hjoins e (List.mem_append_left _ he)
  · apply ((stages_loads hschema hhidden hjoins).1 _).mpr
    exact ⟨related, "name", _, _, rfl, hrelated, .inl rfl, rfl⟩

end Populate

end QueryPipeline
