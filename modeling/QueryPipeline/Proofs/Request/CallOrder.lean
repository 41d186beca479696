import QueryPipeline.Proofs.Pipeline.Idempotence
import QueryPipeline.Proofs.Request.Application

namespace QueryPipeline

/-- The operation, besides search, that adds stages of this kind. -/
def Stage.owner : Stage → Operation
  | .matching _ => .filter
  | .sort _ => .sort
  | .project _ => .limitFields
  | .skip _ => .paginate
  | .limit _ => .paginate
  | _ => .populate

namespace Pipeline

def ownedBy (operation : Operation) (stages : List Stage) : List Stage :=
  stages.filter fun s => s.owner = operation

/-- There is a skip just when there is a limit. -/
def Paired (stages : List Stage) : Prop :=
  stages.any Stage.isSkip = stages.any Stage.isLimit

theorem filterMap_congr_ownedBy {α : Type} {f : Stage → Option α} {operation : Operation}
    (hf : ∀ s, s.owner ≠ operation → f s = none) {stages stages' : List Stage}
    (h : ownedBy operation stages = ownedBy operation stages') :
    stages.filterMap f = stages'.filterMap f := by
  have howned (stages : List Stage) :
      (ownedBy operation stages).filterMap f = stages.filterMap f := by
    rw [ownedBy, List.filterMap_filter]
    congr
    funext s
    by_cases hs : s.owner = operation
    · simp [hs]
    · simp [hs, hf s hs]
  rw [← howned, h, howned]

theorem filter_isPage_eq_ownedBy (stages : List Stage) :
    stages.filter Stage.isPage = ownedBy .paginate stages := by
  apply List.filter_congr
  intro s _
  cases s <;> rfl

theorem pagePart_ownedBy (stages : List Stage) :
    pagePart (ownedBy .paginate stages) = pagePart stages := by
  rw [← filter_isPage_eq_ownedBy, pagePart_filter_isPage]

theorem movesPages_of_paired {stages : List Stage} (hp : Paired stages) {s : Stage}
    (hs : s ∈ stages) (hpage : s.isPage = true) : movesPages stages = true := by
  rw [Stage.isPage, Bool.or_eq_true] at hpage
  rcases hpage with h | h
  · have hskip : stages.any Stage.isSkip = true := List.any_eq_true.mpr ⟨s, hs, h⟩
    rw [movesPages, ← hp, hskip, Bool.and_self]
  · have hlimit : stages.any Stage.isLimit = true := List.any_eq_true.mpr ⟨s, hs, h⟩
    rw [movesPages, hp, hlimit, Bool.and_self]

theorem unmoved_of_paired {stages : List Stage} (hp : Paired stages) :
    unmoved stages = ownedBy .populate stages := by
  apply List.filter_congr
  intro s hs
  cases s with
  | skip n => rw [movesPages_of_paired hp hs rfl]; rfl
  | limit n => rw [movesPages_of_paired hp hs rfl]; rfl
  | _ => cases movesPages stages <;> rfl

theorem matching?_eq_none (s : Stage) (h : s.owner ≠ .filter) : s.matching? = none := by
  cases s <;> first | rfl | exact absurd rfl h

theorem sort?_eq_none (s : Stage) (h : s.owner ≠ .sort) : s.sort? = none := by
  cases s <;> first | rfl | exact absurd rfl h

theorem project?_eq_none (s : Stage) (h : s.owner ≠ .limitFields) : s.project? = none := by
  cases s <;> first | rfl | exact absurd rfl h

/-- The canonical order does not look at how the stages of different operations stand to each
other. -/
theorem reorder_congr {stages stages' : List Stage} (hp : Paired stages) (hp' : Paired stages')
    (h : ∀ operation, ownedBy operation stages = ownedBy operation stages') :
    reorder stages = reorder stages' := by
  have hmatches := filterMap_congr_ownedBy matching?_eq_none (h .filter)
  have hsorts := filterMap_congr_ownedBy sort?_eq_none (h .sort)
  have hprojections := filterMap_congr_ownedBy project?_eq_none (h .limitFields)
  have hcanonical (criteria : Dict) : canonical stages criteria = canonical stages' criteria := by
    have hm : matchPart stages criteria = matchPart stages' criteria := by
      rw [matchPart, hmatches, matchPart]
    have hu : unmoved stages = unmoved stages' := by
      rw [unmoved_of_paired hp, h, unmoved_of_paired hp']
    have ho : sortPart stages = sortPart stages' := by
      rw [sortPart, mergedSpec, hsorts, sortPart, mergedSpec]
    have hl : pagePart stages = pagePart stages' := by
      rw [← pagePart_ownedBy, h, pagePart_ownedBy]
    have hq : projectPart stages = projectPart stages' := by
      rw [projectPart, hprojections, projectPart]
    rw [canonical, hm, hu, ho, hl, hq, canonical]
  rw [reorder_eq, hmatches, funext hcanonical, reorder_eq]

theorem flatten_eq_of_perm {α : Type} {blocks blocks' : List (List α)}
    (h : blocks.Perm blocks') (hone : blocks.Pairwise fun a b => a = [] ∨ b = []) :
    blocks.flatten = blocks'.flatten := by
  induction h with
  | nil => rfl
  | cons block _ ih =>
    rw [List.flatten_cons, List.flatten_cons, ih hone.of_cons]
  | swap a b rest =>
    -- The two blocks are appended in either order, and one of them is empty.
    simp only [List.flatten_cons]
    rcases (List.pairwise_cons.mp hone).1 a List.mem_cons_self with rfl | rfl
    · rfl
    · rfl
  | trans h₁ _ ih₁ ih₂ =>
    rw [ih₁ hone, ih₂ ((h₁.pairwise_iff fun hab => hab.symm).mp hone)]

end Pipeline

namespace Session

open Pipeline

/-- Applies clauses one after another, each with what it answers. One that fails adds nothing, and
the run goes on. -/
def applyAll (s : Session) : List Clause → List (Clause × Except Fault Answer) × Session
  | [] => ([], s)
  | clause :: rest =>
    let (answer, next) := s.apply clause
    let (answers, last) := next.applyAll rest
    ((clause, answer) :: answers, last)

theorem applyAll_cons (s : Session) (clause : Clause) (rest : List Clause) :
    s.applyAll (clause :: rest) =
      ((clause, (s.apply clause).1) :: ((s.apply clause).2.applyAll rest).1,
        ((s.apply clause).2.applyAll rest).2) := rfl

def answerOf (s : Session) (clause : Clause) : Clause × Except Fault Answer :=
  (clause, (s.outcome clause).map fun _ => .nothing)

section Owner

variable {scope : Scope} {q : QueryObject} {stages : List Stage} {stage : Stage}

theorem owner_of_mem_filterStages (h : scope.filterStages q = .ok stages) (hs : stage ∈ stages) :
    stage.owner = .filter := by
  obtain ⟨e, _, he⟩ := Outcome.mem_of_mapM_eq_ok h hs
  obtain ⟨criteria, _, he⟩ := Outcome.bind_eq_ok_iff.mp he
  cases he
  rfl

theorem owner_of_mem_sortStages {spec : Dict} (hs : stage ∈ Sort.stages spec) :
    stage.owner = .sort := by
  rw [Sort.stages] at hs
  split at hs
  · cases hs
  · rw [List.mem_singleton.mp hs]
    rfl

theorem owner_of_mem_projectionStages (h : Projection.stages scope q = .ok stages)
    (hs : stage ∈ stages) : stage.owner = .limitFields := by
  obtain ⟨p, _, h⟩ := Outcome.bind_eq_ok_iff.mp h
  cases h
  split at hs
  · cases hs
  · rw [List.mem_singleton.mp hs]
    rfl

theorem owner_of_mem_pageStages {page : Page} (hs : stage ∈ page.stages) :
    stage.owner = .paginate := by
  cases page with
  | all => cases hs
  | window skip limit =>
    rw [Page.stages, List.mem_cons, List.mem_singleton] at hs
    rcases hs with rfl | rfl
    · rfl
    · rfl

theorem owner_of_mem_joinStages {join : Expression} {key : String}
    (h : Populate.joinStages scope join key = .ok stages) (hs : stage ∈ stages) :
    stage.owner = .populate := by
  obtain ⟨collection, _, h⟩ := Outcome.bind_eq_ok_iff.mp h
  obtain ⟨wanted, _, h⟩ := Outcome.bind_eq_ok_iff.mp h
  obtain ⟨hidden, _, h⟩ := Outcome.bind_eq_ok_iff.mp h
  cases h
  rw [List.mem_cons, List.mem_singleton] at hs
  rcases hs with rfl | rfl
  · rfl
  · rfl

theorem owner_of_mem_populateStages (h : Populate.stages scope q = .ok stages)
    (hs : stage ∈ stages) : stage.owner = .populate := by
  obtain ⟨blocks, hb, h⟩ := Outcome.bind_eq_ok_iff.mp h
  cases h
  obtain ⟨block, hblock, hs⟩ := List.mem_flatten.mp hs
  obtain ⟨e, _, he⟩ := Outcome.mem_of_mapM_eq_ok hb hblock
  cases e with
  | join key payload => exact owner_of_mem_joinStages he hs
  | _ =>
    cases he
    cases hs

end Owner

theorem owner_of_outcome {s : Session} {clause : Clause} (hsearch : clause.operation ≠ .search)
    {stages : List Stage} (h : s.outcome clause = .ok stages) {stage : Stage}
    (hs : stage ∈ stages) : stage.owner = clause.operation := by
  cases clause with
  | filter => exact owner_of_mem_filterStages h hs
  | search fields => exact absurd rfl hsearch
  | sort =>
    obtain ⟨compilation, hc, h⟩ := Outcome.bind_eq_ok_iff.mp h
    obtain ⟨spec, _, hc⟩ := Outcome.bind_eq_ok_iff.mp hc
    cases hc
    cases h
    exact owner_of_mem_sortStages hs
  | limitFields => exact owner_of_mem_projectionStages (Outcome.lift_eq_ok_iff.mp h) hs
  | paginate =>
    cases h
    exact owner_of_mem_pageStages hs
  | populate => exact owner_of_mem_populateStages h hs

theorem owner_of_mem_added {s : Session} {clause : Clause} (hsearch : clause.operation ≠ .search)
    {stage : Stage} (h : stage ∈ s.added clause) : stage.owner = clause.operation := by
  obtain ⟨stages, ho, hs⟩ := mem_added_iff.mp h
  exact owner_of_outcome hsearch ho hs

/-- Of the stages that a run adds, those of one operation are what its clause adds. -/
theorem ownedBy_flatMap_added (s : Session) (operation : Operation) {clauses : List Clause}
    (hsearch : ∀ clause ∈ clauses, clause.operation ≠ .search) :
    ownedBy operation (clauses.flatMap s.added) =
      (clauses.map fun clause =>
        if clause.operation = operation then s.added clause else []).flatten := by
  rw [ownedBy, List.filter_flatMap, List.flatMap_def]
  congr 1
  apply List.map_congr_left
  intro clause hc
  split
  · rename_i heq
    rw [List.filter_eq_self]
    intro stage hs
    rw [owner_of_mem_added (hsearch clause hc) hs, heq]
    exact decide_eq_true rfl
  · rename_i hne
    rw [List.filter_eq_nil_iff]
    intro stage hs
    rw [owner_of_mem_added (hsearch clause hc) hs, decide_eq_true_eq]
    exact hne

theorem ownedBy_perm (s : Session) (operation : Operation) {clauses clauses' : List Clause}
    (hnodup : (clauses.map Clause.operation).Nodup)
    (hsearch : ∀ clause ∈ clauses, clause.operation ≠ .search) (hperm : clauses.Perm clauses') :
    ownedBy operation (clauses.flatMap s.added) = ownedBy operation (clauses'.flatMap s.added) := by
  have hsearch' (clause : Clause) (hc : clause ∈ clauses') : clause.operation ≠ .search :=
    hsearch clause (hperm.mem_iff.mpr hc)
  rw [ownedBy_flatMap_added s operation hsearch, ownedBy_flatMap_added s operation hsearch']
  apply flatten_eq_of_perm (hperm.map _)
  rw [List.pairwise_map]
  refine (List.pairwise_map.mp hnodup).imp ?_
  intro a b hne
  by_cases ha : a.operation = operation
  · have hb : b.operation ≠ operation := fun hb => hne (ha.trans hb.symm)
    exact .inr (if_neg hb)
  · exact .inl (if_neg ha)

theorem paired_added (s : Session) {clause : Clause} (hsearch : clause.operation ≠ .search) :
    Paired (s.added clause) := by
  by_cases hpage : clause.operation = .paginate
  · cases clause with
    | paginate =>
      change Paired (Page.read s.scope.settings s.parameters).stages
      cases Page.read s.scope.settings s.parameters <;> rfl
    | _ => cases hpage
  · have hnone {p : Stage → Bool} (hp : ∀ stage, p stage = true → stage.owner = .paginate) :
        (s.added clause).any p = false := by
      rw [List.any_eq_false]
      intro stage hs h
      exact hpage ((owner_of_mem_added hsearch hs).symm.trans (hp stage h))
    rw [Paired, hnone, hnone]
    all_goals intro stage h; cases stage <;> first | rfl | cases h

theorem paired_flatMap_added (s : Session) {clauses : List Clause}
    (hsearch : ∀ clause ∈ clauses, clause.operation ≠ .search) :
    Paired (clauses.flatMap s.added) := by
  induction clauses with
  | nil => rfl
  | cons clause rest ih =>
    obtain ⟨hc, hr⟩ := List.forall_mem_cons.mp hsearch
    have hfirst := paired_added s hc
    have hlater := ih hr
    rw [Paired] at hfirst hlater ⊢
    rw [List.flatMap_cons, List.any_append, List.any_append, hfirst, hlater]

theorem applyAll_of_open {s t : Session} {clauses : List Clause} (hscope : t.scope = s.scope)
    (hparameters : t.parameters = s.parameters) (hcompiled : t.compiled = none)
    (hnodup : (clauses.map Clause.operation).Nodup)
    (hfresh : ∀ clause ∈ clauses, clause.operation ∉ t.applied) :
    (t.applyAll clauses).1 = clauses.map s.answerOf ∧
      (t.applyAll clauses).2.scope = s.scope ∧ (t.applyAll clauses).2.compiled = none ∧
      (t.applyAll clauses).2.stages = t.stages ++ clauses.flatMap s.added := by
  -- The run moves on from `t`, but what each clause comes to is that of `s` throughout.
  induction clauses generalizing t with
  | nil => exact ⟨rfl, hscope, hcompiled, (List.append_nil _).symm⟩
  | cons clause rest ih =>
    obtain ⟨hne, hrest⟩ := List.nodup_cons.mp hnodup
    obtain ⟨hc, hr⟩ := List.forall_mem_cons.mp hfresh
    have happlied : t.applied.contains clause.operation = false := by
      simpa using hc
    obtain ⟨log, happly⟩ := apply_of_open happlied hcompiled
    have hnext : ∀ later ∈ rest, later.operation ∉ clause.operation :: t.applied := by
      intro later hl hm
      rcases List.mem_cons.mp hm with heq | hm
      · exact hne (heq ▸ List.mem_map_of_mem hl)
      · exact hr later hl hm
    obtain ⟨h₁, h₂, h₃, h₄⟩ := ih (t := { t with
      applied := clause.operation :: t.applied
      log
      stages := t.stages ++ t.added clause }) hscope hparameters hcompiled hrest hnext
    rw [applyAll_cons, happly]
    refine ⟨?_, h₂, h₃, ?_⟩
    · dsimp only
      rw [h₁, List.map_cons, answerOf, outcome_congr hscope hparameters]
    · dsimp only
      rw [h₄, added_congr hscope hparameters, List.flatMap_cons, List.append_assoc]

/-- Operations besides search can be applied in any order: each answers the same, and the session
finishes with the same pipeline, which loads and counts by the same documents. -/
theorem applyAll_perm {source : SchemaSource} {settings : Settings} {query language : Value}
    {lines : List LogLine} {s : Session} {clauses clauses' : List Clause}
    (hstart : start source settings query language = (lines, .ok s))
    (hnodup : (clauses.map Clause.operation).Nodup)
    (hsearch : ∀ clause ∈ clauses, clause.operation ≠ .search) (hperm : clauses.Perm clauses') :
    (s.applyAll clauses).1.Perm (s.applyAll clauses').1 ∧
      (s.applyAll clauses).2.finish.1 = (s.applyAll clauses').2.finish.1 ∧
      ∀ p p', (s.applyAll clauses).2.finish.1 = .ok p → (s.applyAll clauses').2.finish.1 = .ok p' →
        p.documents = p'.documents ∧ p.countDocuments = p'.countDocuments ∧ p.facet = p'.facet := by
  obtain ⟨hstages, happlied, hcompiled⟩ := start_open hstart
  have hfresh (clauses : List Clause) : ∀ clause ∈ clauses, clause.operation ∉ s.applied := by
    intro clause _ hm
    rw [happlied] at hm
    cases hm
  have hsearch' (clause : Clause) (hc : clause ∈ clauses') : clause.operation ≠ .search :=
    hsearch clause (hperm.mem_iff.mpr hc)
  have hnodup' : (clauses'.map Clause.operation).Nodup := (hperm.map _).nodup_iff.mp hnodup
  obtain ⟨h₁, h₂, h₃, h₄⟩ := applyAll_of_open rfl rfl hcompiled hnodup (hfresh clauses)
  obtain ⟨h₁', h₂', h₃', h₄'⟩ := applyAll_of_open rfl rfl hcompiled hnodup' (hfresh clauses')
  have hreorder :
      reorder (s.applyAll clauses).2.stages = reorder (s.applyAll clauses').2.stages := by
    rw [h₄, h₄', hstages, List.nil_append, List.nil_append]
    exact reorder_congr (paired_flatMap_added s hsearch) (paired_flatMap_added s hsearch')
      fun operation => ownedBy_perm s operation hnodup hsearch hperm
  have hfinish : (s.applyAll clauses).2.finish.1 = (s.applyAll clauses').2.finish.1 := by
    rw [finish_eq h₃, finish_eq h₃', h₂, h₂', hreorder]
  refine ⟨?_, hfinish, ?_⟩
  · rw [h₁, h₁']
    exact hperm.map _
  · intro p p' hp hp'
    rw [hfinish, hp'] at hp
    cases hp
    exact ⟨rfl, rfl, rfl⟩

theorem applyAll_perm_failing_filter :
    let schema : Schema :=
      { origin := .mapping, modelName := none,
        fields := [("price", { type := .number }),
          ("users", { type := .array, target := .text "User" })],
        translatable := [], collection := none }
    let query : Value := .map
      [("price", .map [("gt", .text "5"), ("lt", .text "x")]),
        ("users", .map [("p", .text "name")]), ("sort", .text "-price;name"),
        ("fields", .text "name")]
    let s : Session :=
      { scope := { schema, settings := {}, asked := none }
        parameters :=
          { control := [("sort", .text "-price;name"), ("fields", .text "name")]
            filters := [.operator "price" "$gt" (.text "5"), .operator "price" "$lt" (.text "x")]
            joins := [.join "users" (.text "name")] } }
    let clauses : List Clause := [.filter, .sort, .limitFields, .paginate, .populate]
    start (.schema schema) {} query .null = ([], .ok s) ∧
      (s.apply .filter).1 = .error (.invalidValue "price" (.text "x") .number) ∧
      (s.applyAll clauses).1.Perm (s.applyAll clauses.reverse).1 ∧
      (s.applyAll clauses).2.finish.1 = (s.applyAll clauses.reverse).2.finish.1 ∧
      ∀ p p', (s.applyAll clauses).2.finish.1 = .ok p →
        (s.applyAll clauses.reverse).2.finish.1 = .ok p' →
        p.documents = p'.documents ∧ p.countDocuments = p'.countDocuments ∧ p.facet = p'.facet := by
  intro schema query s clauses
  have hstart : start (.schema schema) {} query .null = ([], .ok s) := rfl
  have hsearch : ∀ clause ∈ clauses, clause.operation ≠ .search := by decide
  exact ⟨hstart, rfl, applyAll_perm hstart (by decide) hsearch (List.reverse_perm _).symm⟩

end Session
end QueryPipeline
