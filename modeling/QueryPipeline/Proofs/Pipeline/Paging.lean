import QueryPipeline.Pipeline.Compiled
import QueryPipeline.Proofs.Pipeline.CanonicalOrder

namespace QueryPipeline

namespace Pipeline

def unpaged (stages : List Stage) : List Stage :=
  stages.filter fun s => !s.isPage

theorem unpaged_append (stages later : List Stage) :
    unpaged (stages ++ later) = unpaged stages ++ unpaged later :=
  List.filter_append ..

theorem countingStages_eq (stages : List Stage) :
    countingStages stages = unpaged stages ++ [.count (.text totalField)] := rfl

theorem unpaged_eq_self {stages : List Stage} (h : ∀ s ∈ stages, s.isPage = false) :
    unpaged stages = stages := by
  apply List.filter_eq_self.mpr
  intro s hs
  rw [h s hs]
  rfl

theorem unpaged_eq_nil {stages : List Stage} (h : ∀ s ∈ stages, s.isPage = true) :
    unpaged stages = [] := by
  apply List.filter_eq_nil_iff.mpr
  intro s hs
  rw [h s hs]
  exact Bool.false_ne_true

theorem filterMap_unpaged {α : Type} {f : Stage → Option α} (hs : ∀ n, f (.skip n) = none)
    (hl : ∀ n, f (.limit n) = none) (stages : List Stage) :
    (unpaged stages).filterMap f = stages.filterMap f := by
  apply filterMap_filter_not
  intro s hp
  rcases Stage.eq_of_isPage hp with ⟨n, rfl | rfl⟩
  · exact hs n
  · exact hl n

theorem movesPages_unpaged (stages : List Stage) : movesPages (unpaged stages) = false := by
  have hskip : (unpaged stages).any Stage.isSkip = false := by
    apply List.any_eq_false.mpr
    intro s hs hskip
    have hpage := (List.mem_filter.mp hs).2
    rw [Stage.isPage, hskip] at hpage
    cases hpage
  rw [movesPages, hskip, Bool.false_and]

theorem pagePart_unpaged (stages : List Stage) : pagePart (unpaged stages) = [] := by
  rcases pagePart_cases (unpaged stages) with ⟨_, hp⟩ | ⟨m, n, hmoves, _⟩
  · exact hp
  · rw [movesPages_unpaged] at hmoves
    cases hmoves

theorem unmoved_unpaged (stages : List Stage) :
    unmoved (unpaged stages) = unpaged (unmoved stages) := by
  rw [unmoved, movesPages_unpaged, unmoved, unpaged, unpaged, List.filter_filter,
    List.filter_filter]
  apply List.filter_congr
  intro s _
  cases s <;> cases movesPages stages <;> rfl

theorem unpaged_matchPart (stages : List Stage) (criteria : Dict) :
    unpaged (matchPart stages criteria) = matchPart stages criteria := by
  apply unpaged_eq_self
  intro s hs
  rw [eq_matching_of_mem_matchPart hs]
  rfl

theorem unpaged_sortPart (stages : List Stage) :
    unpaged (sortPart stages) = sortPart stages := by
  apply unpaged_eq_self
  intro s hs
  rw [eq_sort_of_mem_sortPart hs]
  rfl

theorem unpaged_projectPart (stages : List Stage) :
    unpaged (projectPart stages) = projectPart stages := by
  apply unpaged_eq_self
  intro s hs
  obtain ⟨p, rfl⟩ := eq_project_of_mem_projectPart hs
  rfl

theorem unpaged_pagePart (stages : List Stage) : unpaged (pagePart stages) = [] :=
  unpaged_eq_nil fun _ hs => isPage_of_mem_pagePart hs

/-- The canonical order of the other stages is that of all stages, without the pages. -/
theorem canonical_unpaged (stages : List Stage) (criteria : Dict) :
    canonical (unpaged stages) criteria = unpaged (canonical stages criteria) := by
  have hm : matchPart (unpaged stages) criteria = matchPart stages criteria := by
    rw [matchPart, filterMap_unpaged (fun _ => rfl) (fun _ => rfl), matchPart]
  have ho : sortPart (unpaged stages) = sortPart stages := by
    rw [sortPart, mergedSpec, filterMap_unpaged (fun _ => rfl) (fun _ => rfl), sortPart, mergedSpec]
  have hq : projectPart (unpaged stages) = projectPart stages := by
    rw [projectPart, filterMap_unpaged (fun _ => rfl) (fun _ => rfl), projectPart]
  rw [canonical, hm, ho, hq, unmoved_unpaged, pagePart_unpaged, canonical]
  simp only [unpaged_append, unpaged_matchPart, unpaged_sortPart, unpaged_pagePart,
    unpaged_projectPart]

/-- Reordering and taking the pages out commute. -/
theorem reorder_unpaged (stages : List Stage) :
    reorder (unpaged stages) = unpaged <$> reorder stages := by
  rw [reorder_eq, filterMap_unpaged (fun _ => rfl) (fun _ => rfl), reorder_eq]
  cases Criteria.mergeAll (stages.filterMap Stage.matching?) with
  | error cause => rfl
  | ok criteria => exact congrArg Except.ok (canonical_unpaged stages criteria)

end Pipeline

namespace CompiledPipeline

def unpaged (p : CompiledPipeline) : CompiledPipeline :=
  { p with stages := Pipeline.unpaged p.stages }

variable {p p' : CompiledPipeline}

theorem countStages?_of_unpaged (h : p.unpaged = p'.unpaged) :
    p.countStages? = p'.countStages? := by
  obtain ⟨stages, counted⟩ := p
  obtain ⟨stages', counted'⟩ := p'
  obtain ⟨hstages, rfl⟩ := CompiledPipeline.mk.inj h
  rw [countStages?, countStages?, Pipeline.countingStages_eq, Pipeline.countingStages_eq, hstages]

theorem countDocuments_of_unpaged (h : p.unpaged = p'.unpaged) :
    p.countDocuments = p'.countDocuments := by
  rw [countDocuments, countStages?_of_unpaged h, countDocuments]

end CompiledPipeline

end QueryPipeline
