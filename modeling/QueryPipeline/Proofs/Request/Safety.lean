import QueryPipeline.Proofs.Request.Run

namespace QueryPipeline.Session

section Moves

variable {s t : Session} {step : Step} {answer : Except Fault Answer}

theorem Moves.frame (h : s.Moves step answer t) :
    t.scope = s.scope ∧ t.parameters = s.parameters := by
  cases h <;> exact ⟨rfl, rfl⟩

theorem added_of_outcome_error {clause : Clause} {f : Fault} (h : s.outcome clause = .error f) :
    s.added clause = [] := by
  rw [added, h]
  rfl

theorem Moves.appends (h : s.Moves step answer t) :
    ∃ added, t.stages = s.stages ++ added ∧ ∀ f, answer = .error f → added = [] := by
  cases h with
  | @applied clause log fresh uncompiled =>
    refine ⟨s.added clause, rfl, fun f hf => ?_⟩
    cases ho : s.outcome clause with
    | error g => exact added_of_outcome_error ho
    | ok stages =>
      rw [ho] at hf
      cases hf
  | @added document stage uncompiled h => exact ⟨[stage], rfl, nofun⟩
  | _ => exact ⟨[], (List.append_nil _).symm, fun _ _ => rfl⟩

theorem Moves.mem_applied_iff (h : s.Moves step answer t) {operation : Operation} :
    operation ∈ t.applied ↔ operation ∈ s.applied ∨ step.operation? = some operation := by
  cases h with
  | reused applied =>
    refine ⟨.inl, fun h => ?_⟩
    rcases h with h | h
    · exact h
    · cases h
      exact applied
  | refused fresh closed cause => simp [Step.operation?, eq_comm, or_comm]
  | applied fresh uncompiled => simp [Step.operation?, eq_comm, or_comm]
  | finished finishes h => simp [Step.operation?_of_finishes finishes]
  | unfinished finishes h => simp [Step.operation?_of_finishes finishes]
  | _ => simp [Step.operation?]

theorem Moves.compiled (h : s.Moves step answer t) {pipeline : CompiledPipeline}
    (hs : s.compiled = some pipeline) : t.compiled = some pipeline ∧ t.stages = s.stages := by
  cases h with
  | applied fresh uncompiled =>
    rw [uncompiled] at hs
    cases hs
  | added uncompiled h =>
    rw [uncompiled] at hs
    cases hs
  | finished finishes h =>
    rw [finish_of_compiled hs] at h
    cases h
    exact ⟨rfl, rfl⟩
  | _ => exact ⟨hs, rfl⟩

end Moves

section Run

variable {s : Session}

theorem run_frame (steps : List Step) :
    (s.run steps).scope = s.scope ∧ (s.run steps).parameters = s.parameters := by
  induction steps generalizing s with
  | nil => exact ⟨rfl, rfl⟩
  | cons step rest ih =>
    obtain ⟨hscope, hparameters⟩ := (step_moves s step).frame
    rw [run_cons, ih.1, ih.2]
    exact ⟨hscope, hparameters⟩

theorem mem_run_applied_iff (steps : List Step) {operation : Operation} :
    operation ∈ (s.run steps).applied ↔
      operation ∈ s.applied ∨ operation ∈ steps.filterMap Step.operation? := by
  induction steps generalizing s with
  | nil => simp [run]
  | cons step rest ih =>
    rw [run_cons, ih, (step_moves s step).mem_applied_iff, List.filterMap_cons, or_assoc]
    cases step.operation? <;> simp [eq_comm]

theorem run_compiled {pipeline : CompiledPipeline} (h : s.compiled = some pipeline)
    (steps : List Step) :
    (s.run steps).compiled = some pipeline ∧ (s.run steps).stages = s.stages := by
  induction steps generalizing s with
  | nil => exact ⟨h, rfl⟩
  | cons step rest ih =>
    obtain ⟨hcompiled, hstages⟩ := (step_moves s step).compiled h
    rw [run_cons, (ih hcompiled).1, (ih hcompiled).2, hstages]
    exact ⟨rfl, rfl⟩

end Run

/-- What holds throughout all runs of a session, of which every step may fail. -/
structure RunsSafely (s : Session) : Prop where
  appends (before : List Step) (step : Step) :
    ∃ added, (s.run (before ++ [step])).stages = (s.run before).stages ++ added ∧
      ∀ f, s.answer before step = .error f → added = []
  /-- Before the stages are compiled, the first call of an operation adds what its clause comes to,
  whatever was done before. -/
  applies (before : List Step) (isOpen : (s.run before).compiled = none) (clause : Clause)
    (first : clause.operation ∉ before.filterMap Step.operation?) :
    s.answer before (.apply clause) = (s.outcome clause).map (fun _ => .nothing) ∧
      (s.run (before ++ [.apply clause])).stages = (s.run before).stages ++ s.added clause
  takes (before : List Step) (isOpen : (s.run before).compiled = none) (document : Value)
    (stage : Stage) (h : Stage.ofDocument document = .ok stage) :
    s.answer before (.addStage document) = .ok .nothing ∧
      (s.run (before ++ [.addStage document])).stages = (s.run before).stages ++ [stage]
  /-- An operation that was called before, even in vain, is refused and adds nothing. -/
  once (before : List Step) (clause : Clause)
    (called : clause.operation ∈ before.filterMap Step.operation?) :
    s.answer before (.apply clause) = .error (.operationReused clause.operation) ∧
      (s.run (before ++ [.apply clause])).stages = (s.run before).stages
  /-- What needs the compiled stages compiles them, also when it fails later. -/
  compiles (before : List Step) (step : Step) (finishes : step.finishes = true)
    (pipeline : CompiledPipeline) (h : (s.run before).finish.1 = .ok pipeline) :
    (s.run (before ++ [step])).compiled = some pipeline ∧
      (s.run (before ++ [step])).stages = (s.run before).stages
  uncompiled (before : List Step) (step : Step) (finishes : step.finishes = true) (f : Fault)
    (h : (s.run before).finish.1 = .error f) :
    s.answer before step = .error f ∧ (s.run (before ++ [step])).compiled = none ∧
      (s.run (before ++ [step])).stages = (s.run before).stages
  frozen (before after : List Step) (pipeline : CompiledPipeline)
    (h : (s.run before).compiled = some pipeline) :
    (s.run (before ++ after)).compiled = some pipeline ∧
      (s.run (before ++ after)).stages = (s.run before).stages
  closed (before : List Step) (h : (s.run before).compiled.isSome = true) (document : Value) :
    s.answer before (.addStage document) = .error .alreadyCompiled
  /-- A compiled session refuses an operation at its first call too, unless the operation has failed
  before it comes to that. -/
  refused (before : List Step) (h : (s.run before).compiled.isSome = true) (clause : Clause)
    (first : clause.operation ∉ before.filterMap Step.operation?)
    (readable : ∀ f, ¬ clause.Unreadable s.scope s.parameters f) :
    s.answer before (.apply clause) = .error .alreadyCompiled
  /-- An operation that fails before is one whose parameters cannot be read. -/
  unread (before : List Step) (clause : Clause)
    (first : clause.operation ∉ before.filterMap Step.operation?) (f : Fault)
    (h : clause.Unreadable s.scope s.parameters f) :
    s.answer before (.apply clause) = .error f

section Safety

variable {s : Session} {before : List Step} {clause : Clause}

theorem answer_applied (hfresh : clause.operation ∉ (s.run before).applied)
    (hcompiled : (s.run before).compiled = none) :
    s.answer before (.apply clause) = (s.outcome clause).map (fun _ => .nothing) ∧
      (s.run (before ++ [.apply clause])).stages = (s.run before).stages ++ s.added clause := by
  obtain ⟨hscope, hparameters⟩ := run_frame (s := s) before
  have happlied : (s.run before).applied.contains clause.operation = false := by simpa using hfresh
  obtain ⟨log, happly⟩ := apply_of_open happlied hcompiled
  rw [run_concat, answer, step, happly, outcome_congr hscope hparameters,
    added_congr hscope hparameters]
  exact ⟨rfl, rfl⟩

theorem answer_taken (hcompiled : (s.run before).compiled = none) {document : Value}
    {stage : Stage} (h : Stage.ofDocument document = .ok stage) :
    s.answer before (.addStage document) = .ok .nothing ∧
      (s.run (before ++ [.addStage document])).stages = (s.run before).stages ++ [stage] := by
  rw [run_concat, answer, step, addStage, hcompiled, h]
  exact ⟨rfl, rfl⟩

theorem answer_reused (h : clause.operation ∈ (s.run before).applied) :
    s.answer before (.apply clause) = .error (.operationReused clause.operation) ∧
      (s.run (before ++ [.apply clause])).stages = (s.run before).stages := by
  rw [run_concat, answer, step, apply_of_applied h]
  exact ⟨rfl, rfl⟩

theorem run_compiles {step : Step} (hfinishes : step.finishes = true)
    {pipeline : CompiledPipeline} (h : (s.run before).finish.1 = .ok pipeline) :
    (s.run (before ++ [step])).compiled = some pipeline ∧
      (s.run (before ++ [step])).stages = (s.run before).stages := by
  obtain ⟨log, collection, hstep⟩ := step_of_finish_ok hfinishes h
  rw [run_concat, hstep]
  exact ⟨rfl, rfl⟩

theorem answer_uncompiled {step : Step} (hfinishes : step.finishes = true) {f : Fault}
    (h : (s.run before).finish.1 = .error f) :
    s.answer before step = .error f ∧ (s.run (before ++ [step])).compiled = none ∧
      (s.run (before ++ [step])).stages = (s.run before).stages := by
  have hstep := step_of_finish_error hfinishes h
  rw [run_concat, answer, hstep]
  exact ⟨rfl, (finish_of_error h).2, rfl⟩

theorem run_compile_eq_error_iff {f : Fault} :
    (s.run before).compile clause = .error f ↔ clause.Unreadable s.scope s.parameters f := by
  obtain ⟨hscope, hparameters⟩ := run_frame (s := s) before
  rw [compile_eq_error_iff, hscope, hparameters]

theorem answer_unread (hfresh : clause.operation ∉ (s.run before).applied) {f : Fault}
    (h : clause.Unreadable s.scope s.parameters f) :
    s.answer before (.apply clause) = .error f := by
  have happlied : (s.run before).applied.contains clause.operation = false := by simpa using hfresh
  rw [answer, step, apply, happlied, if_neg Bool.false_ne_true]
  simp only [compile_applied, run_compile_eq_error_iff.mpr h]

theorem answer_refused (hfresh : clause.operation ∉ (s.run before).applied)
    (hclosed : (s.run before).compiled.isSome = true)
    (hreadable : ∀ f, ¬ clause.Unreadable s.scope s.parameters f) :
    s.answer before (.apply clause) = .error .alreadyCompiled := by
  obtain ⟨f, happly, hcause⟩ := apply_of_closed hfresh hclosed
  rw [answer, step, happly]
  rcases hcause with hunread | ⟨rfl, _⟩
  · exact absurd (run_compile_eq_error_iff.mp hunread) (hreadable f)
  · rfl

/-- No run of a started session breaks the order of its steps. -/
theorem start_runsSafely {source : SchemaSource} {settings : Settings} {query language : Value}
    {lines : List LogLine} (hstart : start source settings query language = (lines, .ok s)) :
    s.RunsSafely := by
  obtain ⟨_, happlied, _⟩ := start_open hstart
  have hcalled {before : List Step} {operation : Operation} :
      operation ∈ (s.run before).applied ↔ operation ∈ before.filterMap Step.operation? := by
    rw [mem_run_applied_iff, happlied]
    simp
  refine {
    appends := fun before step => (s.run_concat_moves before step).appends
    applies := ?applies
    takes := fun before isOpen document stage h => answer_taken isOpen h
    once := fun before clause called => answer_reused (hcalled.mpr called)
    compiles := fun before step finishes pipeline h => run_compiles finishes h
    uncompiled := fun before step finishes f h => answer_uncompiled finishes h
    frozen := ?frozen
    closed := ?closed
    refused := ?refused
    unread := ?unread }
  case applies =>
    intro before isOpen clause first
    exact answer_applied (mt hcalled.mp first) isOpen
  case frozen =>
    intro before after pipeline h
    rw [run_append]
    exact run_compiled h after
  case closed =>
    intro before h document
    rw [answer, step, addStage, if_pos h]
  case refused =>
    intro before h clause first readable
    exact answer_refused (mt hcalled.mp first) h readable
  case unread =>
    intro before clause first f h
    exact answer_unread (mt hcalled.mp first) h

theorem start_runsSafely_failing_filter :
    let schema : Schema :=
      { origin := .mapping, modelName := none, fields := [("price", { type := .number })],
        translatable := [], collection := none }
    let s : Session :=
      { scope := { schema, settings := {}, asked := none }
        parameters :=
          { control := []
            filters := [.operator "price" "$gt" (.text "5"), .operator "price" "$lt" (.text "x")]
            joins := [] } }
    start (.schema schema) {}
        (.map [("price", .map [("gt", .text "5"), ("lt", .text "x")])]) .null = ([], .ok s) ∧
      s.answer [] (.apply .filter) = .error (.invalidValue "price" (.text "x") .number) ∧
      s.RunsSafely ∧
      s.answer [.apply .filter, .finish] (.apply .filter) = .error (.operationReused .filter) := by
  intro schema s
  have hstart : start (.schema schema) {}
      (.map [("price", .map [("gt", .text "5"), ("lt", .text "x")])]) .null = ([], .ok s) := rfl
  have hsafe := start_runsSafely hstart
  exact ⟨hstart, rfl, hsafe, (hsafe.once [.apply .filter, .finish] .filter (by decide)).1⟩

/-- The fields to search are read before the session is found compiled. -/
theorem answer_search_compiled :
    let schema : Schema :=
      { origin := .mapping, modelName := none, fields := [("name", { type := .string })],
        translatable := [], collection := none }
    ∃ s, start (.schema schema) {} (.map []) .null = ([], .ok s) ∧
      (s.run [.finish]).compiled.isSome = true ∧
      s.answer [.finish] (.apply (.search (.int 5))) = .error (.mismatch .notIterable) ∧
      s.answer [.finish] (.apply (.search (.int 5))) ≠ .error .alreadyCompiled ∧
      s.answer [.finish] (.apply (.search (.int 5))) ≠ .error (.operationReused .search) :=
  ⟨_, rfl, rfl, rfl, nofun, nofun⟩

end Safety

end QueryPipeline.Session
