import QueryPipeline.Proofs.Pipeline.Paging
import QueryPipeline.Proofs.Query.Paging
import QueryPipeline.Proofs.Request.Run

namespace QueryPipeline.Session

open Pipeline Outcome

/-- The same session, but for the page that its query chooses and the skips and limits that come of
it. What was logged or sent does not count. -/
structure SameUnpaged (s t : Session) : Prop where
  scope : s.scope = t.scope
  parameters : s.parameters.unpaged = t.parameters.unpaged
  stages : unpaged s.stages = unpaged t.stages
  applied : s.applied = t.applied
  compiled : s.compiled.map CompiledPipeline.unpaged = t.compiled.map CompiledPipeline.unpaged

/-- Only pagination reads the parameters of pages. -/
theorem compile_unpaged (s : Session) {clause : Clause} (h : clause.operation ≠ .paginate) :
    compile { s with parameters := s.parameters.unpaged } clause = s.compile clause := by
  have hsort : "sort" ∉ pageKeys := by decide
  cases clause with
  | search fields =>
    have hsearch : "search" ∉ pageKeys := by decide
    simp only [compile, Search.read, QueryObject.controlText_unpaged _ hsearch,
      QueryObject.controlText_unpaged _ hsort]
  | sort => simp only [compile, Sort.read, QueryObject.controlText_unpaged _ hsort]
  | limitFields =>
    have hfields : "fields" ∉ pageKeys := by decide
    simp only [compile, Projection.stages, Projection.requested,
      QueryObject.controlText_unpaged _ hfields]
  | paginate => exact absurd rfl h
  | _ => rfl

theorem askedLanguage_unpaged (settings : Settings) (language : Value) (q : QueryObject) :
    askedLanguage settings language q.unpaged = askedLanguage settings language q := by
  have hlang : "lang" ∉ pageKeys := by decide
  rw [askedLanguage, q.controlValue_unpaged hlang, askedLanguage]

theorem unpaged_pageStages (page : Page) : unpaged page.stages = [] := by
  cases page <;> rfl

theorem unpaged_finish {s : Session} (h : s.compiled = none) :
    CompiledPipeline.unpaged <$> s.finish.1 =
      (fun stages => { stages, counted := s.scope.settings.countsTotal.truthy }) <$>
        Mismatch.lift (reorder (unpaged s.stages)) := by
  rw [finish_eq h, reorder_unpaged]
  cases reorder s.stages <;> rfl

namespace SameUnpaged

variable {s t : Session}

theorem outcome (h : s.SameUnpaged t) {clause : Clause} (hclause : clause.operation ≠ .paginate) :
    s.outcome clause = t.outcome clause := by
  rw [Session.outcome, ← compile_unpaged s hclause, Session.outcome, ← compile_unpaged t hclause]
  congr 1
  apply compile_congr
  · exact h.scope
  · exact h.parameters

theorem added (h : s.SameUnpaged t) (clause : Clause) :
    unpaged (s.added clause) = unpaged (t.added clause) := by
  by_cases hclause : clause.operation = .paginate
  · cases clause with
    | paginate =>
      change unpaged (Page.read s.scope.settings s.parameters).stages =
        unpaged (Page.read t.scope.settings t.parameters).stages
      rw [unpaged_pageStages, unpaged_pageStages]
    | _ => cases hclause
  · rw [Session.added, h.outcome hclause, Session.added]

theorem isSome_compiled (h : s.SameUnpaged t) : s.compiled.isSome = t.compiled.isSome := by
  rw [← Option.isSome_map, h.compiled, Option.isSome_map]

theorem compiled_eq_none (h : s.SameUnpaged t) (hs : s.compiled = none) : t.compiled = none := by
  rw [← Option.isNone_iff_eq_none, ← Option.not_isSome, ← h.isSome_compiled, hs]
  rfl

theorem finish (h : s.SameUnpaged t) :
    CompiledPipeline.unpaged <$> s.finish.1 = CompiledPipeline.unpaged <$> t.finish.1 := by
  have hcompiled := h.compiled
  cases hs : s.compiled with
  | some p =>
    cases ht : t.compiled with
    | some p' =>
      rw [finish_of_compiled hs, finish_of_compiled ht]
      rw [hs, ht] at hcompiled
      exact congrArg Except.ok (Option.some.inj hcompiled)
    | none =>
      rw [hs, ht] at hcompiled
      cases hcompiled
  | none =>
    rw [unpaged_finish hs, unpaged_finish (h.compiled_eq_none hs), h.stages, h.scope]

theorem apply (h : s.SameUnpaged t) (clause : Clause) :
    (s.apply clause).2.SameUnpaged (t.apply clause).2 := by
  by_cases happlied : clause.operation ∈ s.applied
  · rw [apply_of_applied happlied, apply_of_applied (h.applied ▸ happlied)]
    exact h
  · have happlied' : clause.operation ∉ t.applied := h.applied ▸ happlied
    cases hs : s.compiled with
    | none =>
      have hfresh : s.applied.contains clause.operation = false := by simpa using happlied
      have hfresh' : t.applied.contains clause.operation = false := by simpa using happlied'
      obtain ⟨log, happly⟩ := apply_of_open hfresh hs
      obtain ⟨log', happly'⟩ := apply_of_open hfresh' (h.compiled_eq_none hs)
      rw [happly, happly']
      refine { h with stages := ?_, applied := ?_ }
      · rw [unpaged_append, unpaged_append, h.stages, h.added]
      · rw [h.applied]
    | some p =>
      have hclosed : s.compiled.isSome = true := by rw [hs, Option.isSome_some]
      obtain ⟨f, happly, _⟩ := apply_of_closed happlied hclosed
      obtain ⟨f', happly', _⟩ := apply_of_closed happlied' (h.isSome_compiled ▸ hclosed)
      rw [happly, happly']
      exact { h with applied := by rw [h.applied] }

theorem addStage (h : s.SameUnpaged t) (document : Value) :
    (s.addStage document).2.SameUnpaged (t.addStage document).2 := by
  rw [Session.addStage, Session.addStage, h.isSome_compiled]
  split
  · exact h
  · split
    · exact h
    · refine { h with stages := ?_ }
      rw [unpaged_append, unpaged_append, h.stages]

theorem step_of_finishes (h : s.SameUnpaged t) {step : Step} (hfinishes : step.finishes = true) :
    (s.step step).2.SameUnpaged (t.step step).2 := by
  have hfinish := h.finish
  cases hs : s.finish.1 with
  | error f =>
    cases ht : t.finish.1 with
    | error f' =>
      rw [step_of_finish_error hfinishes hs, step_of_finish_error hfinishes ht]
      exact h
    | ok p =>
      rw [hs, ht] at hfinish
      cases hfinish
  | ok p =>
    cases ht : t.finish.1 with
    | error f =>
      rw [hs, ht] at hfinish
      cases hfinish
    | ok p' =>
      obtain ⟨log, collection, hstep⟩ := step_of_finish_ok hfinishes hs
      obtain ⟨log', collection', hstep'⟩ := step_of_finish_ok hfinishes ht
      rw [hs, ht] at hfinish
      rw [hstep, hstep']
      exact { h with compiled := congrArg some (Except.ok.inj hfinish) }

theorem step (h : s.SameUnpaged t) (step : Step) :
    (s.step step).2.SameUnpaged (t.step step).2 := by
  cases step with
  | apply clause => exact h.apply clause
  | addStage document => exact h.addStage document
  | useCollection collection => exact { h with }
  | _ => exact h.step_of_finishes rfl

theorem run (h : s.SameUnpaged t) (steps : List Step) :
    (s.run steps).SameUnpaged (t.run steps) := by
  induction steps generalizing s t with
  | nil => exact h
  | cons step rest ih => exact ih (h.step step)

end SameUnpaged

theorem start_sameUnpaged {source : SchemaSource} {settings : Settings}
    {query query' language : Value} {lines lines' : List LogLine} {s t : Session}
    (hs : start source settings query language = (lines, .ok s))
    (ht : start source settings query' language = (lines', .ok t))
    {entries entries' : Dict} (hquery : (query.orElse (.map [])).toDict = .ok entries)
    (hquery' : (query'.orElse (.map [])).toDict = .ok entries')
    (hsame : entries.unpaged = entries'.unpaged) : s.SameUnpaged t := by
  obtain ⟨hresolve, ⟨read, hread, hparse⟩, hasked, hsettings⟩ := start_read hs
  obtain ⟨hresolve', ⟨read', hread', hparse'⟩, hasked', hsettings'⟩ := start_read ht
  obtain ⟨hstages, happlied, hcompiled⟩ := start_open hs
  obtain ⟨hstages', happlied', hcompiled'⟩ := start_open ht
  cases hquery.symm.trans hread
  cases hquery'.symm.trans hread'
  have hschema : s.scope.schema = t.scope.schema := Except.ok.inj (hresolve.symm.trans hresolve')
  have hparameters : s.parameters.unpaged = t.parameters.unpaged := by
    have h := QueryObject.parse_unpaged hparse
    rw [hsame, hschema, QueryObject.parse_unpaged hparse'] at h
    exact (Except.ok.inj h).symm
  have hspoken : s.scope.asked = t.scope.asked := by
    rw [← askedLanguage_unpaged, hparameters, askedLanguage_unpaged, hasked'] at hasked
    exact (Except.ok.inj hasked).symm
  have hscope : s.scope = t.scope := calc
    s.scope = ⟨s.scope.schema, s.scope.settings, s.scope.asked⟩ := rfl
    _ = ⟨t.scope.schema, t.scope.settings, t.scope.asked⟩ := by
      rw [hschema, hsettings, hspoken, hsettings']
    _ = t.scope := rfl
  exact {
    scope := hscope
    parameters := hparameters
    stages := by rw [hstages, hstages']
    applied := by rw [happlied, happlied']
    compiled := by rw [hcompiled, hcompiled'] }

/-- The page that a query chooses has no influence on the total: after the same steps, whatever they
are, both sessions finish or neither does, they count the documents by the same stages, and they
load them by the same stages but for skips and limits. -/
theorem run_total_unpaged {source : SchemaSource} {settings : Settings}
    {query query' language : Value} {lines lines' : List LogLine} {s t : Session}
    (hs : start source settings query language = (lines, .ok s))
    (ht : start source settings query' language = (lines', .ok t))
    {entries entries' : Dict} (hquery : (query.orElse (.map [])).toDict = .ok entries)
    (hquery' : (query'.orElse (.map [])).toDict = .ok entries')
    (hsame : entries.unpaged = entries'.unpaged) (steps : List Step) :
    ((∃ p, (s.run steps).finish.1 = .ok p) ↔ ∃ p', (t.run steps).finish.1 = .ok p') ∧
      ∀ p p', (s.run steps).finish.1 = .ok p → (t.run steps).finish.1 = .ok p' →
        p.countStages? = p'.countStages? ∧ p.countDocuments = p'.countDocuments ∧
          (p.stages.filter fun stage => !stage.isPage) =
            p'.stages.filter fun stage => !stage.isPage := by
  have hfinish := ((start_sameUnpaged hs ht hquery hquery' hsame).run steps).finish
  constructor
  · simp only [← fault?_eq_none_iff]
    rw [← fault?_map CompiledPipeline.unpaged, hfinish, fault?_map]
  · intro p p' hp hp'
    rw [hp, hp'] at hfinish
    have hunpaged : p.unpaged = p'.unpaged := Except.ok.inj hfinish
    refine ⟨CompiledPipeline.countStages?_of_unpaged hunpaged,
      CompiledPipeline.countDocuments_of_unpaged hunpaged, ?_⟩
    exact congrArg CompiledPipeline.stages hunpaged

theorem run_total_unpaged_lone_limit :
    let schema : Schema :=
      { origin := .mapping, modelName := none, fields := [("name", { type := .string })],
        translatable := [], collection := none }
    let query : Entries Value := [("name", .text "x"), ("limit", .int (-1))]
    let query' : Entries Value := [("page", .text "3"), ("name", .text "x")]
    let filters : List Expression := [.equals "name" (.text "x")]
    let s : Session :=
      { scope := { schema, settings := {}, asked := none }
        parameters := { control := [("limit", .int (-1))], filters, joins := [] } }
    let t : Session :=
      { scope := { schema, settings := {}, asked := none }
        parameters := { control := [("page", .text "3")], filters, joins := [] } }
    let steps : List Step :=
      [.addStage (.map [("$limit", .int 3)]), .addStage (.map [("$unwind", .text "$tags")]),
        .apply .paginate, .apply .filter, .count false]
    let filter : Stage := .matching [("name", .text "x")]
    let unwind : Stage := .raw [("$unwind", .text "$tags")]
    start (.schema schema) {} (.map query) .null = ([], .ok s) ∧
      start (.schema schema) {} (.map query') .null = ([], .ok t) ∧
      (s.run steps).finish.1 = .ok ⟨[filter, .limit (.int 3), unwind], true⟩ ∧
      (t.run steps).finish.1 =
        .ok ⟨[filter, unwind, .skip (.int 50), .limit (.int 3)], true⟩ ∧
      ((∃ p, (s.run steps).finish.1 = .ok p) ↔ ∃ p', (t.run steps).finish.1 = .ok p') ∧
      ∀ p p', (s.run steps).finish.1 = .ok p → (t.run steps).finish.1 = .ok p' →
        p.countStages? = p'.countStages? ∧ p.countDocuments = p'.countDocuments ∧
          (p.stages.filter fun stage => !stage.isPage) =
            p'.stages.filter fun stage => !stage.isPage := by
  intro schema query query' filters s t steps filter unwind
  have hs : start (.schema schema) {} (.map query) .null = ([], .ok s) := rfl
  have ht : start (.schema schema) {} (.map query') .null = ([], .ok t) := rfl
  have hsame : (Dict.ofEntries query).unpaged = (Dict.ofEntries query').unpaged := rfl
  refine ⟨hs, ht, ?_, ?_, run_total_unpaged hs ht rfl rfl hsame steps⟩
  -- Both runs are evaluated as closed terms.
  · subst steps s unwind filter filters schema
    rfl
  · subst steps t unwind filter filters schema
    rfl

end QueryPipeline.Session
