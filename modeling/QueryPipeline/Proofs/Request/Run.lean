import QueryPipeline.Proofs.Request.Application
import QueryPipeline.Proofs.Request.Reading

namespace QueryPipeline

def Step.operation? : Step → Option Operation
  | .apply clause => some clause.operation
  | _ => none

/-- Does the step compile the stages, by itself or before it sends them? -/
def Step.finishes : Step → Bool
  | .finish => true
  | .facet => true
  | .execute _ => true
  | .count _ => true
  | _ => false

theorem Step.operation?_of_finishes {step : Step} (h : step.finishes = true) :
    step.operation? = none := by
  cases step <;> first | rfl | cases h

namespace Session

/-- The session that a run of steps leads to; a step that fails does not end the run. -/
def run (s : Session) (steps : List Step) : Session :=
  steps.foldl (fun reached step => (reached.step step).2) s

def answer (s : Session) (before : List Step) (step : Step) : Except Fault Answer :=
  ((s.run before).step step).1

/-- What a step can answer and lead to. -/
inductive Moves (s : Session) : Step → Except Fault Answer → Session → Prop where
  | reused {clause : Clause} (applied : clause.operation ∈ s.applied) :
    Moves s (.apply clause) (.error (.operationReused clause.operation)) s
  | refused {clause : Clause} {f : Fault} (fresh : clause.operation ∉ s.applied)
    (closed : s.compiled.isSome = true)
    (cause : s.compile clause = .error f ∨
      f = .alreadyCompiled ∧ ∃ compilation, s.compile clause = .ok compilation) :
    Moves s (.apply clause) (.error f) { s with applied := clause.operation :: s.applied }
  | applied {clause : Clause} {log : List LogLine} (fresh : clause.operation ∉ s.applied)
    (uncompiled : s.compiled = none) :
    Moves s (.apply clause) ((s.outcome clause).map fun _ => .nothing) { s with
      applied := clause.operation :: s.applied
      log
      stages := s.stages ++ s.added clause }
  | added {document : Value} {stage : Stage} (uncompiled : s.compiled = none)
    (h : Stage.ofDocument document = .ok stage) :
    Moves s (.addStage document) (.ok .nothing) { s with stages := s.stages ++ [stage] }
  | notAdded {document : Value} {m : Mismatch} (uncompiled : s.compiled = none)
    (h : Stage.ofDocument document = .error m) :
    Moves s (.addStage document) (.error (.mismatch m)) s
  | notAddable {document : Value} (closed : s.compiled.isSome = true) :
    Moves s (.addStage document) (.error .alreadyCompiled) s
  | finished {step : Step} {answer : Except Fault Answer} {pipeline : CompiledPipeline}
    {log : List LogLine} {collection : Option Collection} (finishes : step.finishes = true)
    (h : s.finish.1 = .ok pipeline) :
    Moves s step answer { s with compiled := some pipeline, log, collection }
  | unfinished {step : Step} {f : Fault} (finishes : step.finishes = true)
    (h : s.finish.1 = .error f) : Moves s step (.error f) s
  | collected {collection : Collection} :
    Moves s (.useCollection collection) (.ok .nothing) { s with collection := some collection }

section Step

variable {s : Session}

theorem finish_of_ok {pipeline : CompiledPipeline} (h : s.finish.1 = .ok pipeline) :
    s.finish.2 = { s with compiled := some pipeline } := by
  unfold finish at h ⊢
  split at h
  · rename_i hc
    cases h
    rw [← hc]
  · split at h
    · cases h
    · cases h
      rfl

theorem finish_of_error {f : Fault} (h : s.finish.1 = .error f) :
    s.finish.2 = s ∧ s.compiled = none := by
  unfold finish at h ⊢
  split at h
  · cases h
  · rename_i hc
    split at h
    · exact ⟨rfl, hc⟩
    · cases h

theorem finish_of_compiled {pipeline : CompiledPipeline} (h : s.compiled = some pipeline) :
    s.finish.1 = .ok pipeline := by
  rw [finish, h]

theorem send_snd (s : Session) (pipeline : Value) :
    ∃ log, (s.send pipeline).2 = { s with log } := by
  unfold send logPipeline
  split
  · exact ⟨s.log, rfl⟩
  · rename_i sent hsent
    have hs : ∃ log, sent = { s with log } := by
      split at hsent
      · split at hsent
        · cases hsent
        · cases hsent
          exact ⟨_, rfl⟩
      · cases hsent
        exact ⟨s.log, rfl⟩
    obtain ⟨log, rfl⟩ := hs
    split
    · exact ⟨log, rfl⟩
    · exact ⟨log, rfl⟩

theorem execute_of_ok {pipeline : CompiledPipeline} (h : s.finish.1 = .ok pipeline)
    (awaits : Bool) : ∃ log collection,
      (s.execute awaits).2 = { s with compiled := some pipeline, log, collection } := by
  have hfinish : s.finish = (.ok pipeline, { s with compiled := some pipeline }) :=
    Prod.ext h (finish_of_ok h)
  obtain ⟨log, hsend⟩ := send_snd { s with compiled := some pipeline } pipeline.facet
  rw [execute, hfinish]
  dsimp only
  split
  · rename_i hs
    rw [hs] at hsend
    exact ⟨log, s.collection, hsend⟩
  · rename_i hs
    rw [hs] at hsend
    cases hsend
    exact ⟨log, _, rfl⟩

theorem count_of_ok {pipeline : CompiledPipeline} (h : s.finish.1 = .ok pipeline)
    (awaits : Bool) : ∃ log collection,
      (s.count awaits).2 = { s with compiled := some pipeline, log, collection } := by
  have hfinish : s.finish = (.ok pipeline, { s with compiled := some pipeline }) :=
    Prod.ext h (finish_of_ok h)
  obtain ⟨log, hsend⟩ := send_snd { s with compiled := some pipeline }
    (.list (Stage.toDocuments (countingStages pipeline.stages)))
  rw [count, hfinish]
  dsimp only
  split
  · rename_i hs
    rw [hs] at hsend
    exact ⟨log, s.collection, hsend⟩
  · rename_i hs
    rw [hs] at hsend
    cases hsend
    exact ⟨log, _, rfl⟩

/-- A step that compiles the stages compiles them also when it fails later. -/
theorem step_of_finish_ok {step : Step} (hfinishes : step.finishes = true)
    {pipeline : CompiledPipeline} (h : s.finish.1 = .ok pipeline) : ∃ log collection,
      (s.step step).2 = { s with compiled := some pipeline, log, collection } := by
  cases step with
  | finish => exact ⟨s.log, s.collection, finish_of_ok h⟩
  | facet => exact ⟨s.log, s.collection, finish_of_ok h⟩
  | execute awaits => exact execute_of_ok h awaits
  | count awaits => exact count_of_ok h awaits
  | _ => cases hfinishes

theorem step_of_finish_error {step : Step} (hfinishes : step.finishes = true) {f : Fault}
    (h : s.finish.1 = .error f) : s.step step = (.error f, s) := by
  have hfinish : s.finish = (.error f, s) := Prod.ext h (finish_of_error h).1
  cases step with
  | finish => rw [Session.step, hfinish]; rfl
  | facet => rw [Session.step, hfinish]; rfl
  | execute awaits => rw [Session.step, execute, hfinish]
  | count awaits => rw [Session.step, count, hfinish]
  | _ => cases hfinishes

theorem moves_of_finishes {step : Step} (hfinishes : step.finishes = true) :
    s.Moves step (s.step step).1 (s.step step).2 := by
  cases h : s.finish.1 with
  | ok pipeline =>
    obtain ⟨log, collection, hs⟩ := step_of_finish_ok hfinishes h
    rw [hs]
    exact .finished hfinishes h
  | error f =>
    rw [step_of_finish_error hfinishes h]
    exact .unfinished hfinishes h

theorem moves_addStage (s : Session) (document : Value) :
    s.Moves (.addStage document) (s.addStage document).1 (s.addStage document).2 := by
  rw [Session.addStage]
  split
  · exact .notAddable ‹_›
  · rename_i hcompiled
    have uncompiled : s.compiled = none := by simpa using hcompiled
    cases h : Stage.ofDocument document with
    | error m => exact .notAdded uncompiled h
    | ok stage => exact .added uncompiled h

theorem apply_of_applied {clause : Clause} (h : clause.operation ∈ s.applied) :
    s.apply clause = (.error (.operationReused clause.operation), s) := by
  rw [apply, if_pos (List.contains_iff_mem.mpr h)]

/-- A clause that comes too late is still read, and may fail there. -/
theorem apply_of_closed {clause : Clause} (hfresh : clause.operation ∉ s.applied)
    (hclosed : s.compiled.isSome = true) :
    ∃ f, s.apply clause = (.error f, { s with applied := clause.operation :: s.applied }) ∧
      (s.compile clause = .error f ∨
        f = .alreadyCompiled ∧ ∃ compilation, s.compile clause = .ok compilation) := by
  have happlied : s.applied.contains clause.operation = false := by simpa using hfresh
  rw [apply, happlied, if_neg Bool.false_ne_true]
  simp only [compile_applied]
  cases hc : s.compile clause with
  | error f => exact ⟨f, rfl, .inl rfl⟩
  | ok compilation =>
    dsimp only
    rw [if_pos hclosed]
    exact ⟨.alreadyCompiled, rfl, .inr ⟨rfl, compilation, rfl⟩⟩

theorem moves_apply (s : Session) (clause : Clause) :
    s.Moves (.apply clause) (s.apply clause).1 (s.apply clause).2 := by
  by_cases happlied : clause.operation ∈ s.applied
  · rw [apply_of_applied happlied]
    exact .reused happlied
  · cases hcompiled : s.compiled with
    | none =>
      obtain ⟨log, h⟩ := apply_of_open (by simpa using happlied) hcompiled
      rw [h]
      exact .applied happlied hcompiled
    | some pipeline =>
      have hclosed : s.compiled.isSome = true := by rw [hcompiled, Option.isSome_some]
      obtain ⟨f, h, cause⟩ := apply_of_closed happlied hclosed
      rw [h]
      exact .refused happlied hclosed cause

theorem step_moves (s : Session) (step : Step) :
    s.Moves step (s.step step).1 (s.step step).2 := by
  cases step with
  | apply clause => exact moves_apply s clause
  | addStage document => exact moves_addStage s document
  | useCollection collection => exact .collected
  | _ => exact moves_of_finishes rfl

end Step

section Run

variable (s : Session)

theorem run_cons (step : Step) (rest : List Step) :
    s.run (step :: rest) = (s.step step).2.run rest := rfl

theorem run_append (before after : List Step) :
    s.run (before ++ after) = (s.run before).run after :=
  List.foldl_append

theorem run_concat (before : List Step) (step : Step) :
    s.run (before ++ [step]) = ((s.run before).step step).2 :=
  s.run_append before [step]

theorem run_concat_moves (before : List Step) (step : Step) :
    (s.run before).Moves step (s.answer before step) (s.run (before ++ [step])) := by
  rw [run_concat]
  exact step_moves _ step

end Run

end Session

end QueryPipeline
