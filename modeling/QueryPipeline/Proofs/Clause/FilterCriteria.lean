import QueryPipeline.Clause.Filter
import QueryPipeline.Proofs.Clause.Conversion
import QueryPipeline.Proofs.Path
import QueryPipeline.Proofs.Request.Application
import QueryPipeline.Proofs.Value.Equality

namespace QueryPipeline

def suffixOperators : List String :=
  operatorSuffixes.map Prod.snd

/-- What a filter can ask of the value of its field. -/
inductive Condition : Value → Prop where
  | flat {v : Value} (h : v.Flat) : Condition v
  | operator {op : String} {v : Value} (listed : op ∈ suffixOperators) (h : v.Flat) :
    Condition (.map [(op, v)])
  | regex (s : String) : Condition (.map [("$regex", .text s), ("$options", .text "i")])

namespace Scope

/-- The paths where a field is stored: its own, and one in the language of the request and one in
the default language. -/
inductive Stores (scope : Scope) (field : String) : String → Prop where
  | itself : Stores scope field field
  | translation {language : Value}
    (spoken : language = scope.language ∨ language = scope.fallbackLanguage) :
    Stores scope field (translatedPath language field)

/-- A condition at one path, or at either of two. -/
inductive Asks (paths : String → Prop) : Dict → Prop where
  | one {path : String} {condition : Value} (stored : paths path) (h : Condition condition) :
    Asks paths [(.text path, condition)]
  | either {path path' : String} {condition : Value} (stored : paths path) (stored' : paths path')
    (h : Condition condition) :
    Asks paths [("$or", .list [.map [(path, condition)], .map [(path', condition)]])]

end Scope

theorem Criteria.isOperator_eq_leading (key : String) :
    isOperator key = decide ((Path.leading key.toList).head? = some '$') := by
  rw [isOperator]
  cases key.toList with
  | nil => rfl
  | cons c cs =>
    by_cases hc : c = '.'
    · rw [hc, Path.leading_dot]
      rfl
    · rw [Path.leading_cons hc, List.head?_cons, List.head?_cons]

theorem Schema.isOperator_of_hasField {schema : Schema} {path : String}
    (hfields : ∀ key ∈ Entries.keys schema.fields, Criteria.isOperator key = false)
    (htranslatable : ∀ key, .text key ∈ schema.translatable → Criteria.isOperator key = false)
    (h : schema.hasField path = true) : Criteria.isOperator path = false := by
  obtain ⟨named, hnamed, hleading⟩ := exists_names_of_hasField h
  rw [Criteria.isOperator_eq_leading, ← hleading, ← Criteria.isOperator_eq_leading]
  rcases hnamed with hnamed | hnamed
  · exact hfields named hnamed
  · exact htranslatable named hnamed

namespace Scope

variable {scope : Scope} {e : Expression}

theorem condition_of_filters {condition : Value} (he : e.Filters scope.schema)
    (h : scope.condition e = .ok condition) : Condition condition := by
  cases he with
  | equals known spelled => exact .flat (Coerce.values_flat spelled h)
  | operator known listed spelled =>
    obtain ⟨v, hv, h⟩ := Outcome.bind_eq_ok_iff.mp h
    cases h
    exact .operator (List.mem_map_of_mem listed) (Coerce.values_flat spelled hv)
  | regex known s =>
    cases h
    exact .regex (Text.escapePattern s)

theorem Asks.imp {paths paths' : String → Prop} (hpaths : ∀ path, paths path → paths' path)
    {criteria : Dict} (h : Asks paths criteria) : Asks paths' criteria := by
  cases h with
  | one stored h => exact .one (hpaths _ stored) h
  | either stored stored' h => exact .either (hpaths _ stored) (hpaths _ stored') h

theorem asks_anyPath {condition : Value} (field : String) (h : Condition condition) :
    Asks (scope.Stores field) (.ofEntries (anyPath (scope.queryPaths field) condition)) := by
  have hfallback : scope.Stores field (scope.fallbackPath field) := by
    rw [fallbackPath]
    split
    · exact .itself
    · exact .translation (.inr rfl)
  rw [queryPaths]
  split
  · exact .either (.translation (.inl rfl)) hfallback h
  · exact .one .itself h

theorem exists_of_mem_filterStages {q : QueryObject} {stages : List Stage}
    (h : scope.filterStages q = .ok stages) {stage : Stage} (hstage : stage ∈ stages) :
    ∃ e ∈ q.filters, ∃ condition, scope.condition e = .ok condition ∧
      stage = .matching (.ofEntries (anyPath (scope.queryPaths e.field) condition)) := by
  obtain ⟨e, he, hmatching⟩ := Outcome.mem_of_mapM_eq_ok h hstage
  obtain ⟨criteria, hcriteria, hmatching⟩ := Outcome.bind_eq_ok_iff.mp hmatching
  obtain ⟨condition, hcondition, hcriteria⟩ := Outcome.bind_eq_ok_iff.mp hcriteria
  cases hmatching
  cases hcriteria
  exact ⟨e, he, condition, hcondition, rfl⟩

theorem mem_filterStages {q : QueryObject} (hfilters : ∀ e ∈ q.filters, e.Filters scope.schema)
    {stages : List Stage} (h : scope.filterStages q = .ok stages) {stage : Stage}
    (hstage : stage ∈ stages) :
    ∃ e ∈ q.filters, ∃ criteria, stage = .matching criteria ∧
      Asks (scope.Stores e.field) criteria := by
  obtain ⟨e, he, condition, hcondition, rfl⟩ := exists_of_mem_filterStages h hstage
  exact ⟨e, he, _, rfl, asks_anyPath e.field (condition_of_filters (hfilters e he) hcondition)⟩

theorem isOperator_translatedPath (language : Value) (field : String) :
    Criteria.isOperator (translatedPath language field) = false := by
  simp [Criteria.isOperator, translatedPath, String.toList_append]

theorem Stores.isOperator {field path : String} (h : scope.Stores field path)
    (hfield : Criteria.isOperator field = false) : Criteria.isOperator path = false := by
  cases h with
  | itself => exact hfield
  | translation spoken => exact isOperator_translatedPath _ field

end Scope

namespace Session

/-- No filter of a written query brings an operator of its own into the pipeline. -/
theorem filter_asks {source : SchemaSource} {settings : Settings} {entries : Entries Value}
    {language : Value} {lines : List LogLine} {s : Session}
    (hstart : start source settings (.map entries) language = (lines, .ok s))
    (hwritten : (Value.map entries).Written)
    (hfields : ∀ path ∈ Entries.keys s.scope.schema.fields, Criteria.isOperator path = false)
    (htranslatable : ∀ path, .text path ∈ s.scope.schema.translatable →
      Criteria.isOperator path = false)
    {stage : Stage} (hstage : stage ∈ (s.apply .filter).2.stages) :
    ∃ e ∈ s.parameters.filters, s.scope.schema.hasField e.field = true ∧
      ∃ criteria, stage = .matching criteria ∧
        Scope.Asks (fun path => s.scope.Stores e.field path ∧ Criteria.isOperator path = false)
          criteria := by
  obtain ⟨hstages, happlied, hcompiled⟩ := start_open hstart
  obtain ⟨_, hparse, _, _⟩ := start_ok hstart
  have hfresh : s.applied.contains Clause.filter.operation = false := by rw [happlied]; rfl
  obtain ⟨log, happly⟩ := apply_of_open hfresh hcompiled
  rw [happly] at hstage
  dsimp only at hstage
  rw [hstages, List.nil_append, mem_added_iff] at hstage
  obtain ⟨stages, ho, hstage⟩ := hstage
  have hfilters := (QueryObject.parse_readable hwritten.entries hparse).filters
  obtain ⟨e, he, criteria, hmatching, hasks⟩ := Scope.mem_filterStages hfilters ho hstage
  have known := (hfilters e he).known
  have hfield := Schema.isOperator_of_hasField hfields htranslatable known
  exact ⟨e, he, known, criteria, hmatching, hasks.imp fun path h => ⟨h, h.isOperator hfield⟩⟩

theorem filter_asks_translated_title :
    let schema : Schema :=
      { origin := .mapping, modelName := none,
        fields := [("title", { type := .string }), ("price", { type := .number })],
        translatable := [.text "title"], collection := none }
    let settings : Settings := { translates := .bool true }
    let entries : Entries Value :=
      [("title", .map [("s", .text "a.b")]),
        ("price", .map [("in", .text "1;2"), ("$where", .map [("gt", .text "x")])])]
    let s : Session :=
      { scope := { schema, settings, asked := none }
        parameters :=
          { control := []
            filters := [.regex "title" (.text "a.b"),
              .operator "price" "$in" (.list [.text "1", .text "2"])]
            joins := [] }
        log := droppedLines schema (.ofEntries entries) }
    let pattern : Value := .map [("$regex", .text "a\\.b"), ("$options", .text "i")]
    let criteria : Dict :=
      [("$or", .list [.map [("translations.en.title", pattern)], .map [("title", pattern)]])]
    start (.schema schema) settings (.map entries) .null = (s.log, .ok s) ∧
      (s.apply .filter).2.stages =
        [.matching criteria, .matching [("price", .map [("$in", .list [.int 1, .int 2])])]] ∧
      ∃ e ∈ s.parameters.filters, schema.hasField e.field = true ∧
        ∃ criteria', Stage.matching criteria = .matching criteria' ∧
          Scope.Asks (fun path => s.scope.Stores e.field path ∧ Criteria.isOperator path = false)
            criteria' := by
  intro schema settings entries s pattern criteria
  have hstart : start (.schema schema) settings (.map entries) .null = (s.log, .ok s) := rfl
  have hstages : (s.apply .filter).2.stages =
      [.matching criteria, .matching [("price", .map [("$in", .list [.int 1, .int 2])])]] := rfl
  have hwritten : (Value.map entries).Written :=
    .cons (.cons (.spelled (.text _)) .nil)
      (.cons (.cons (.spelled (.text _)) (.cons (.cons (.spelled (.text _)) .nil) .nil)) .nil)
  have hstage : .matching criteria ∈ (s.apply .filter).2.stages := by
    rw [hstages]
    exact List.mem_cons_self
  refine ⟨hstart, hstages, filter_asks hstart hwritten (by decide) ?_ hstage⟩
  intro path hpath
  cases List.mem_singleton.mp hpath
  decide

end Session

end QueryPipeline
