import QueryPipeline.Proofs.Outcome
import QueryPipeline.Request.Session

namespace QueryPipeline.Session

/-- What a clause comes to: the stages that it adds, or a fault. -/
def outcome (s : Session) (clause : Clause) : Except Fault (List Stage) := do
  (← s.compile clause).stages

def added (s : Session) (clause : Clause) : List Stage :=
  (s.outcome clause).toOption.getD []

theorem mem_added_iff {s : Session} {clause : Clause} {stage : Stage} :
    stage ∈ s.added clause ↔ ∃ stages, s.outcome clause = .ok stages ∧ stage ∈ stages := by
  rw [added]
  cases s.outcome clause with
  | error f => simp [Except.toOption]
  | ok stages => simp [Except.toOption]

theorem compile_congr {s t : Session} (hscope : t.scope = s.scope)
    (hparameters : t.parameters = s.parameters) (clause : Clause) :
    t.compile clause = s.compile clause := by
  cases clause <;> simp only [compile, hscope, hparameters]

theorem outcome_congr {s t : Session} (hscope : t.scope = s.scope)
    (hparameters : t.parameters = s.parameters) (clause : Clause) :
    t.outcome clause = s.outcome clause := by
  rw [outcome, compile_congr hscope hparameters, outcome]

theorem added_congr {s t : Session} (hscope : t.scope = s.scope)
    (hparameters : t.parameters = s.parameters) (clause : Clause) :
    t.added clause = s.added clause := by
  rw [added, outcome_congr hscope hparameters, added]

theorem compile_applied (s : Session) (clause : Clause) (operations : List Operation) :
    compile { s with applied := operations } clause = s.compile clause :=
  compile_congr rfl rfl clause

theorem apply_eq {s : Session} {clause : Clause} {compilation : Compilation} {stages : List Stage}
    (happlied : s.applied.contains clause.operation = false) (hcompiled : s.compiled = none)
    (hc : s.compile clause = .ok compilation) (hs : compilation.stages = .ok stages) :
    s.apply clause = (.ok .nothing, { s with
      applied := clause.operation :: s.applied
      log := s.log ++ compilation.lines
      stages := s.stages ++ stages }) := by
  have hcompiled' : s.compiled.isSome = false := by rw [hcompiled, Option.isSome_none]
  rw [apply, happlied, if_neg Bool.false_ne_true]
  simp only [compile_applied, hc, hs]
  rw [hcompiled', if_neg Bool.false_ne_true]

theorem apply_of_outcome_error {s : Session} {clause : Clause} {f : Fault}
    (happlied : s.applied.contains clause.operation = false) (hcompiled : s.compiled = none)
    (hf : s.outcome clause = .error f) :
    ∃ log, s.apply clause =
      (.error f, { s with applied := clause.operation :: s.applied, log }) := by
  have hcompiled' : s.compiled.isSome = false := by rw [hcompiled, Option.isSome_none]
  rw [apply, happlied, if_neg Bool.false_ne_true]
  rw [outcome] at hf
  simp only [compile_applied]
  cases hc : s.compile clause with
  | error g =>
    rw [hc] at hf
    cases hf
    exact ⟨s.log, rfl⟩
  | ok compilation =>
    rw [hc] at hf
    change compilation.stages = .error f at hf
    refine ⟨s.log ++ compilation.lines, ?_⟩
    simp only [hf]
    rw [hcompiled', if_neg Bool.false_ne_true]

theorem apply_of_open {s : Session} {clause : Clause}
    (happlied : s.applied.contains clause.operation = false) (hcompiled : s.compiled = none) :
    ∃ log, s.apply clause = ((s.outcome clause).map fun _ => .nothing, { s with
      applied := clause.operation :: s.applied
      log
      stages := s.stages ++ s.added clause }) := by
  cases ho : s.outcome clause with
  | error f =>
    obtain ⟨log, h⟩ := apply_of_outcome_error happlied hcompiled ho
    refine ⟨log, ?_⟩
    rw [h, added, ho]
    simp [Except.map, Except.toOption]
  | ok stages =>
    obtain ⟨compilation, hc, hs⟩ := Outcome.bind_eq_ok_iff.mp ho
    refine ⟨s.log ++ compilation.lines, ?_⟩
    rw [apply_eq happlied hcompiled hc hs, added, ho]
    rfl

theorem finish_eq {s : Session} (hcompiled : s.compiled = none) :
    s.finish.1 = (fun stages => { stages, counted := s.scope.settings.countsTotal.truthy }) <$>
      Mismatch.lift (Pipeline.reorder s.stages) := by
  rw [finish, hcompiled]
  dsimp only
  split
  · rename_i hr
    rw [hr]
    rfl
  · rename_i hr
    rw [hr]
    rfl

theorem orElse_map (entries : Entries Value) :
    (Value.map entries).orElse (.map []) = .map entries := by
  cases entries <;> rfl

theorem start_read {source : SchemaSource} {settings : Settings} {query language : Value}
    {lines : List LogLine} {s : Session}
    (h : start source settings query language = (lines, .ok s)) :
    source.resolve = .ok s.scope.schema ∧
      (∃ entries, (query.orElse (.map [])).toDict = .ok entries ∧
        QueryObject.parse s.scope.schema entries = .ok s.parameters) ∧
      Mismatch.lift (askedLanguage settings language s.parameters) = .ok s.scope.asked ∧
      s.scope.settings = settings := by
  rw [start] at h
  split at h
  · cases h
  · rename_i schema entries hr
    obtain ⟨resolved, hresolve, hr⟩ := Outcome.bind_eq_ok_iff.mp hr
    obtain ⟨read, hread, hr⟩ := Outcome.bind_eq_ok_iff.mp hr
    cases hr
    split at h
    · cases h
    · rename_i parameters asked hp
      obtain ⟨parsed, hparse, hp⟩ := Outcome.bind_eq_ok_iff.mp hp
      obtain ⟨spoken, hasked, hp⟩ := Outcome.bind_eq_ok_iff.mp hp
      cases hp
      cases h
      exact ⟨hresolve, ⟨entries, Outcome.lift_eq_ok_iff.mp hread, hparse⟩, hasked, rfl⟩

theorem start_ok {source : SchemaSource} {settings : Settings} {entries : Entries Value}
    {language : Value} {lines : List LogLine} {s : Session}
    (h : start source settings (.map entries) language = (lines, .ok s)) :
    source.resolve = .ok s.scope.schema ∧
      QueryObject.parse s.scope.schema (.ofEntries entries) = .ok s.parameters ∧
      Mismatch.lift (askedLanguage settings language s.parameters) = .ok s.scope.asked ∧
      s.scope.settings = settings := by
  obtain ⟨hresolve, ⟨read, hread, hparse⟩, hasked, hsettings⟩ := start_read h
  rw [orElse_map] at hread
  cases hread
  exact ⟨hresolve, hparse, hasked, hsettings⟩

/-- Once the schema is there, a session fails to start when the query cannot be parsed, or when its
language cannot be looked up. -/
theorem fault?_start {source : SchemaSource} {schema : Schema} {settings : Settings}
    {entries : Entries Value} {language : Value} (hresolve : source.resolve = .ok schema) :
    Outcome.fault? (start source settings (.map entries) language).2 =
      Outcome.fault? (QueryObject.parse schema (.ofEntries entries) >>= fun q =>
        Mismatch.lift (askedLanguage settings language q)) := by
  have hread : Mismatch.lift (Value.map entries).toDict = .ok (Dict.ofEntries entries) := rfl
  rw [start, orElse_map, hresolve, hread]
  dsimp only [bind, Except.bind, pure, Except.pure]
  cases QueryObject.parse schema (.ofEntries entries) with
  | error f => rfl
  | ok q =>
    dsimp only
    cases Mismatch.lift (askedLanguage settings language q) <;> rfl

theorem start_open {source : SchemaSource} {settings : Settings} {query language : Value}
    {lines : List LogLine} {s : Session}
    (h : start source settings query language = (lines, .ok s)) :
    s.stages = [] ∧ s.applied = [] ∧ s.compiled = none := by
  rw [start] at h
  split at h
  · cases h
  · split at h
    · cases h
    · cases h
      exact ⟨rfl, rfl, rfl⟩

end QueryPipeline.Session
