import QueryPipeline.Proofs.Clause.FilterMerging
import QueryPipeline.Proofs.Clause.SortKeys
import QueryPipeline.Proofs.Query.Control
import QueryPipeline.Proofs.Request.Safety
import QueryPipeline.Proofs.Request.SearchOrder

namespace QueryPipeline

open Pipeline

/-- Neither a search nor a stage of one's own. -/
def Step.IsOrdinary : Step → Prop
  | .apply (.search _) => False
  | .addStage _ => False
  | _ => True

theorem Step.IsOrdinary.operation_ne_search {clause : Clause}
    (h : (Step.apply clause).IsOrdinary) : clause.operation ≠ .search := by
  cases clause <;> first | exact h.elim | exact fun he => nomatch he

namespace Session

variable {s t : Session} {step : Step} {answer : Except Fault Answer} {spec : Dict}

section Reading

variable {keys : List Sort.Key}

theorem outcome_sort (hne : keys ≠ []) (hdistinct : (keys.map Sort.Key.field).Nodup)
    (htext : s.parameters.controlText "sort" = Sort.written keys) :
    s.outcome .sort = .ok [.sort (Sort.specOf keys)] := by
  have hread : Sort.read s.scope s.parameters = .ok (Sort.specOf keys) := by
    rw [Sort.read, htext, ← Sort.readSpec_written hne hdistinct]
    exact if_neg (Sort.written_ne_empty hne)
  obtain ⟨key, rest, rfl⟩ := List.exists_cons_of_ne_nil hne
  rw [outcome, compile, hread]
  rfl

end Reading

/-- A session whose only sort is `spec`: so it is among the stages, and in the pipeline once they
are compiled. -/
structure SortsBy (s : Session) (spec : Dict) : Prop where
  applied : .sort ∈ s.applied
  stages : s.stages.filterMap Stage.sort? = [spec]
  pipeline : ∀ p, s.compiled = some p → p.stages.filterMap Stage.sort? = [spec]

/-- A session that has no sort yet, and whose sort will be `spec`. -/
structure AwaitsSort (s : Session) (spec : Dict) : Prop where
  asked : s.outcome .sort = .ok [.sort spec]
  fresh : .sort ∉ s.applied
  stages : s.stages.filterMap Stage.sort? = []
  isOpen : s.compiled = none

theorem Moves.ordinary (h : s.Moves step answer t) (hstep : step.IsOrdinary) :
    t.stages = s.stages ∨ ∃ clause, step = .apply clause ∧ clause.operation ∉ s.applied ∧
      clause.operation ≠ .search ∧ t.stages = s.stages ++ s.added clause := by
  cases h with
  | @applied clause log fresh uncompiled =>
    exact .inr ⟨clause, rfl, fresh, hstep.operation_ne_search, rfl⟩
  | added uncompiled h => exact hstep.elim
  | _ => exact .inl rfl

theorem filterMap_sort?_added {clause : Clause} (hsearch : clause.operation ≠ .search)
    (hsort : clause.operation ≠ .sort) : (s.added clause).filterMap Stage.sort? = [] := by
  rw [List.filterMap_eq_nil_iff]
  intro stage hs
  apply sort?_eq_none
  rwa [owner_of_mem_added hsearch hs]

theorem SortsBy.finish (h : s.SortsBy spec) (hne : spec ≠ []) (hdistinct : Entries.Distinct spec)
    {p : CompiledPipeline} (hp : s.finish.1 = .ok p) : p.stages.filterMap Stage.sort? = [spec] := by
  cases hcompiled : s.compiled with
  | some compiled =>
    rw [finish_of_compiled hcompiled] at hp
    cases hp
    exact h.pipeline p hcompiled
  | none =>
    have hmerged : mergedSpec s.stages = spec := by
      rw [mergedSpec, h.stages, visitOrder_singleton, lastVisits, List.flatten_singleton,
        hdistinct.foldKeys_eq]
    rw [filterMap_sort?_finish hcompiled hp, hmerged]
    exact if_neg fun hempty => hne (List.isEmpty_iff.mp hempty)

theorem Moves.sortsBy (h : s.Moves step answer t) (hstep : step.IsOrdinary)
    (hs : s.SortsBy spec) (hne : spec ≠ []) (hdistinct : Entries.Distinct spec) :
    t.SortsBy spec := by
  cases h with
  | reused applied => exact hs
  | refused fresh closed cause =>
    exact ⟨List.mem_cons_of_mem _ hs.applied, hs.stages, hs.pipeline⟩
  | @applied clause log fresh uncompiled =>
    have hsort : clause.operation ≠ .sort := fun he => fresh (he ▸ hs.applied)
    refine ⟨List.mem_cons_of_mem _ hs.applied, ?_, hs.pipeline⟩
    rw [List.filterMap_append, hs.stages,
      filterMap_sort?_added hstep.operation_ne_search hsort, List.append_nil]
  | added uncompiled h => exact hstep.elim
  | notAdded uncompiled h => exact hs
  | notAddable closed => exact hs
  | finished finishes h =>
    refine ⟨hs.applied, hs.stages, ?_⟩
    intro p hp
    cases hp
    exact hs.finish hne hdistinct h
  | unfinished finishes h => exact hs
  | collected => exact ⟨hs.applied, hs.stages, hs.pipeline⟩

theorem run_sortsBy {steps : List Step} (hsteps : ∀ step ∈ steps, step.IsOrdinary)
    (hs : s.SortsBy spec) (hne : spec ≠ []) (hdistinct : Entries.Distinct spec) :
    (s.run steps).SortsBy spec := by
  induction steps generalizing s with
  | nil => exact hs
  | cons step rest ih =>
    obtain ⟨hstep, hrest⟩ := List.forall_mem_cons.mp hsteps
    exact ih hrest ((step_moves s step).sortsBy hstep hs hne hdistinct)

theorem Moves.sortsBy_of_awaits (h : s.Moves step answer t) (hs : s.AwaitsSort spec)
    (hstep : step.operation? = some .sort) : t.SortsBy spec := by
  cases h with
  | @reused clause applied =>
    have hsort : clause.operation = .sort := Option.some.inj hstep
    exact absurd (hsort ▸ applied) hs.fresh
  | refused fresh closed cause =>
    rw [hs.isOpen] at closed
    cases closed
  | @applied clause log fresh uncompiled =>
    obtain rfl : clause = .sort := by
      cases clause <;> first | rfl | cases hstep
    have hadded : s.added .sort = [.sort spec] := by
      rw [Session.added, hs.asked]
      rfl
    refine ⟨List.mem_cons_self, ?_, ?_⟩
    · rw [hadded, List.filterMap_append, hs.stages]
      rfl
    · intro p hp
      rw [uncompiled] at hp
      cases hp
  | finished finishes h =>
    rw [Step.operation?_of_finishes finishes] at hstep
    cases hstep
  | unfinished finishes h =>
    rw [Step.operation?_of_finishes finishes] at hstep
    cases hstep
  | _ => cases hstep

theorem Moves.awaitsSort (h : s.Moves step answer t) (hs : s.AwaitsSort spec)
    (hordinary : step.IsOrdinary) (hopen : step.finishes = false)
    (hstep : step.operation? ≠ some .sort) : t.AwaitsSort spec := by
  obtain ⟨hscope, hparameters⟩ := h.frame
  have hasked : t.outcome .sort = .ok [.sort spec] := by
    rw [outcome_congr hscope hparameters, hs.asked]
  have hfresh : .sort ∉ t.applied := by
    rw [h.mem_applied_iff, not_or]
    exact ⟨hs.fresh, hstep⟩
  refine ⟨hasked, hfresh, ?_, ?_⟩
  · rcases h.ordinary hordinary with hsame | ⟨clause, rfl, _, hsearch, happended⟩
    · rw [hsame, hs.stages]
    · have hsort : clause.operation ≠ .sort := fun he => hstep (congrArg some he)
      rw [happended, List.filterMap_append, hs.stages, filterMap_sort?_added hsearch hsort]
      rfl
  · cases h with
    | finished finishes h =>
      rw [hopen] at finishes
      cases finishes
    | _ => exact hs.isOpen

theorem run_sortsBy_of_awaits {steps : List Step} (hs : s.AwaitsSort spec)
    (hordinary : ∀ step ∈ steps, step.IsOrdinary) (hopen : ∀ step ∈ steps, step.finishes = false)
    (hsort : .apply .sort ∈ steps) (hne : spec ≠ []) (hdistinct : Entries.Distinct spec) :
    (s.run steps).SortsBy spec := by
  induction steps generalizing s with
  | nil => cases hsort
  | cons step rest ih =>
    obtain ⟨hstep, hrest⟩ := List.forall_mem_cons.mp hordinary
    obtain ⟨hstepOpen, hrestOpen⟩ := List.forall_mem_cons.mp hopen
    rw [run_cons]
    have hmoves := step_moves s step
    by_cases hfirst : step.operation? = some .sort
    · exact run_sortsBy hrest (hmoves.sortsBy_of_awaits hs hfirst) hne hdistinct
    · apply ih (hmoves.awaitsSort hs hstep hstepOpen hfirst) hrest hrestOpen
      rcases List.mem_cons.mp hsort with rfl | hlater
      · exact absurd rfl hfirst
      · exact hlater

theorem mergeable_of_mem_added {clause : Clause} (hsearch : clause.operation ≠ .search)
    (hfilters : ∀ e ∈ s.parameters.filters, e.Comparable)
    (hfield : ∀ e ∈ s.parameters.filters, e.field ≠ "$and") {criteria : Dict}
    (h : .matching criteria ∈ s.added clause) : Criteria.Mergeable criteria := by
  have howner : .filter = clause.operation := owner_of_mem_added hsearch h
  obtain rfl : clause = .filter := by
    cases clause <;> first | rfl | cases howner
  obtain ⟨stages, ho, hs⟩ := mem_added_iff.mp h
  exact Scope.mergeable_of_mem_filterStages hfilters hfield ho hs

theorem run_mergeable {steps : List Step} (hs : s.Mergeable)
    (hsteps : ∀ step ∈ steps, step.IsOrdinary)
    (hfilters : ∀ e ∈ s.parameters.filters, e.Comparable)
    (hfield : ∀ e ∈ s.parameters.filters, e.field ≠ "$and") : (s.run steps).Mergeable := by
  induction steps generalizing s with
  | nil => exact hs
  | cons step rest ih =>
    obtain ⟨hstep, hrest⟩ := List.forall_mem_cons.mp hsteps
    have hmoves := step_moves s step
    rw [run_cons]
    apply ih _ hrest
    · rw [hmoves.frame.2]
      exact hfilters
    · rw [hmoves.frame.2]
      exact hfield
    · intro criteria hc
      rcases hmoves.ordinary hstep with hsame | ⟨clause, _, _, hsearch, happended⟩
      · rw [hsame] at hc
        exact hs criteria hc
      · rw [happended, List.mem_append] at hc
        rcases hc with hc | hc
        · exact hs criteria hc
        · exact mergeable_of_mem_added hsearch hfilters hfield hc

section Started

variable {source : SchemaSource} {settings : Settings} {query language : Value}
  {lines : List LogLine} {entries : Dict} {keys : List Sort.Key} {before after : List Step}

/-- A sort is sent as it was asked for: when the sort operation comes before the stages are
compiled, their only sort goes by the keys as they were written, in their order. -/
theorem finish_sorts_as_written
    (hstart : start source settings query language = (lines, .ok s))
    (hentries : (query.orElse (.map [])).toDict = .ok entries)
    (hne : keys ≠ []) (hdistinct : (keys.map Sort.Key.field).Nodup)
    (hwritten : Entries.get? entries (.text "sort") = some (.text (Sort.written keys)))
    (hordinary : ∀ step ∈ before ++ after, step.IsOrdinary)
    (hopen : ∀ step ∈ before, step.finishes = false) (hsort : .apply .sort ∈ before) :
    (∀ p, s.answer (before ++ after) .finish = .ok (.compiled p) →
      p.stages.filterMap Stage.sort? = [Sort.specOf keys]) ∧
    ((∀ e ∈ s.parameters.filters, e.field ≠ "$and") →
      ∃ p, s.answer (before ++ after) .finish = .ok (.compiled p)) := by
  obtain ⟨hstages, happlied, hcompiled⟩ := start_open hstart
  obtain ⟨_, ⟨read, hread, hparse⟩, _, _⟩ := start_read hstart
  cases hread.symm.trans hentries
  have htext : s.parameters.controlText "sort" = Sort.written keys := by
    rw [QueryObject.controlText, QueryObject.controlValue_eq_get? hparse rfl, hwritten]
    rfl
  have hspec : Sort.specOf keys ≠ [] := by
    rwa [Sort.specOf, ne_eq, List.map_eq_nil_iff]
  have hspecDistinct := Sort.distinct_specOf hdistinct
  have hawaits : s.AwaitsSort (Sort.specOf keys) := by
    refine ⟨outcome_sort hne hdistinct htext, ?_, ?_, hcompiled⟩
    · rw [happlied]
      exact List.not_mem_nil
    · rw [hstages]
      rfl
  obtain ⟨hbefore, hafter⟩ := List.forall_mem_append.mp hordinary
  have hsorts : (s.run (before ++ after)).SortsBy (Sort.specOf keys) := by
    rw [run_append]
    apply run_sortsBy hafter _ hspec hspecDistinct
    exact run_sortsBy_of_awaits hawaits hbefore hopen hsort hspec hspecDistinct
  have hanswer : s.answer (before ++ after) .finish =
      (s.run (before ++ after)).finish.1.map .compiled := rfl
  constructor
  · intro p hp
    rw [hanswer] at hp
    obtain ⟨pipeline, hfinish, heq⟩ := Outcome.map_eq_ok_iff.mp hp
    cases heq
    exact hsorts.finish hspec hspecDistinct hfinish
  · intro hfield
    have hmergeable : s.Mergeable := by
      intro criteria hc
      rw [hstages] at hc
      cases hc
    have hfilters := QueryObject.comparable_of_parse hparse
    obtain ⟨p, hp⟩ := (run_mergeable hmergeable hordinary hfilters hfield).finish_ok
    exact ⟨p, by rw [hanswer, hp]; rfl⟩

end Started

/-- The first key reads like the score, and the second one has a blank inside. -/
theorem finish_sorts_as_written_relevance :
    let schema : Schema :=
      { origin := .mapping, modelName := none, fields := [("name", { type := .string })],
        translatable := [], collection := none }
    let query : Value := .map [("name", .text "x"), ("sort", .text "relevance;-a b")]
    let s : Session :=
      { scope := { schema, settings := {}, asked := none }
        parameters :=
          { control := [("sort", .text "relevance;-a b")],
            filters := [.equals "name" (.text "x")], joins := [] } }
    let before : List Step := [.apply .paginate, .apply .sort, .apply .filter]
    let after : List Step := [.facet, .apply .sort, .apply .populate]
    start (.schema schema) {} query .null = ([], .ok s) ∧
      ∃ p, s.answer (before ++ after) .finish = .ok (.compiled p) ∧
        p.stages.filterMap Stage.sort? =
          [[(.text "relevance", .int 1), (.text "a b", .int (-1))]] := by
  intro schema query s before after
  have hstart : start (.schema schema) {} query .null = ([], .ok s) := rfl
  let score : Sort.Key :=
    { field := "relevance", descending := false, nonempty := by decide, unseparated := by decide,
      unsigned := by decide, bare := by constructor <;> intro c hc <;> cases hc <;> decide }
  let spaced : Sort.Key :=
    { field := "a b", descending := true, nonempty := by decide, unseparated := by decide,
      unsigned := by decide, bare := by constructor <;> intro c hc <;> cases hc <;> decide }
  have hordinary : ∀ step ∈ before ++ after, step.IsOrdinary := by
    simp [before, after, Step.IsOrdinary]
  have hopen : ∀ step ∈ before, step.finishes = false := by
    simp [before, Step.finishes]
  have hsort : .apply .sort ∈ before := by simp [before]
  have htext : Sort.written [score, spaced] = "relevance;-a b" := by decide
  have hwritten : Entries.get? (Dict.ofEntries
      [("name", .text "x"), ("sort", .text "relevance;-a b")]) (.text "sort") =
        some (.text (Sort.written [score, spaced])) := by
    rw [htext]
    rfl
  obtain ⟨hsorts, hfinishes⟩ := finish_sorts_as_written hstart rfl (List.cons_ne_nil score [spaced])
    (by decide) hwritten hordinary hopen hsort
  have hfield : ∀ e ∈ s.parameters.filters, e.field ≠ "$and" := by
    simp [s, Expression.field]
  obtain ⟨p, hp⟩ := hfinishes hfield
  exact ⟨hstart, p, hp, hsorts p hp⟩

end Session

end QueryPipeline
