import QueryPipeline.Proofs.Pipeline.CanonicalOrder
import QueryPipeline.Proofs.Pipeline.Merging

namespace QueryPipeline.Pipeline

theorem distinct_lastVisits (specs : List Dict) : Entries.Distinct (lastVisits specs) :=
  Entries.distinct_foldKeys _ _

theorem lastVisits_lastVisits (specs : List Dict) :
    lastVisits [lastVisits specs] = lastVisits specs := by
  rw [lastVisits, List.flatten_cons, List.flatten_nil, List.append_nil]
  exact (distinct_lastVisits specs).foldKeys_eq _

theorem visitOrder_singleton (spec : Dict) : visitOrder [spec] = [spec] := by
  cases h : hasRelevance spec <;> simp [visitOrder, h]

theorem mergedSpec_canonical (stages : List Stage) (criteria : Dict) :
    mergedSpec (canonical stages criteria) = mergedSpec stages := by
  rw [mergedSpec, filterMap_sort?_canonical]
  split
  · rename_i h
    rw [List.isEmpty_iff.mp h]
    exact Entries.foldKeys_nil _
  · rw [visitOrder_singleton, mergedSpec, lastVisits_lastVisits]

theorem sortPart_canonical (stages : List Stage) (criteria : Dict) :
    sortPart (canonical stages criteria) = sortPart stages := by
  rw [sortPart, mergedSpec_canonical, sortPart]

theorem matchPart_canonical (stages : List Stage) (criteria : Dict) :
    matchPart (canonical stages criteria) criteria = matchPart stages criteria := by
  rw [matchPart, filterMap_matching?_canonical, matchPart]
  cases (stages.filterMap Stage.matching?).isEmpty <;> rfl

theorem projectPart_canonical (stages : List Stage) (criteria : Dict) :
    projectPart (canonical stages criteria) = projectPart stages := by
  rw [projectPart, filterMap_project?_canonical, projectPart]
  cases (stages.filterMap Stage.project?).isEmpty with
  | true => rfl
  | false => simp [lastVisits_lastVisits]

/-- Without a moving page the skips and limits stay among the other stages. -/
theorem any_unmoved {q : Stage → Bool} (hq : ∀ s, q s = true → s.isPage = true)
    (stages : List Stage) :
    (unmoved stages).any q = (!movesPages stages && stages.any q) := by
  have h : (fun s => Stage.stays (movesPages stages) s && q s) =
      fun s => !movesPages stages && q s := by
    funext s
    cases hs : q s with
    | false => rw [Bool.and_false, Bool.and_false]
    | true =>
      rcases Stage.eq_of_isPage (hq s hs) with ⟨n, rfl | rfl⟩ <;> cases movesPages stages <;> rfl
  rw [unmoved, List.any_filter, h]
  cases movesPages stages <;> simp

theorem any_canonical {q : Stage → Bool} (hq : ∀ s, q s = true → s.isPage = true)
    (stages : List Stage) (criteria : Dict) :
    (canonical stages criteria).any q =
      (!movesPages stages && stages.any q || (pagePart stages).any q) := by
  have hf {s : Stage} (hs : s.isPage = false) : q s = false := by
    cases h : q s with
    | false => rfl
    | true => exact absurd (hq s h) (by rw [hs]; exact Bool.false_ne_true)
  have hm : (matchPart stages criteria).any q = false := by
    rw [List.any_eq_false]
    intro s hs
    rw [eq_matching_of_mem_matchPart hs, hf rfl]
    exact Bool.false_ne_true
  have ho : (sortPart stages).any q = false := by
    rw [List.any_eq_false]
    intro s hs
    rw [eq_sort_of_mem_sortPart hs, hf rfl]
    exact Bool.false_ne_true
  have hp : (projectPart stages).any q = false := by
    rw [List.any_eq_false]
    intro s hs
    obtain ⟨p, rfl⟩ := eq_project_of_mem_projectPart hs
    rw [hf rfl]
    exact Bool.false_ne_true
  simp only [canonical, List.any_append, hm, ho, hp, any_unmoved hq, Bool.false_or, Bool.or_false]

theorem isPage_of_isSkip (s : Stage) (h : s.isSkip = true) : s.isPage = true := by
  rw [Stage.isPage, h, Bool.true_or]

theorem isPage_of_isLimit (s : Stage) (h : s.isLimit = true) : s.isPage = true := by
  rw [Stage.isPage, h, Bool.or_true]

theorem movesPages_canonical (stages : List Stage) (criteria : Dict) :
    movesPages (canonical stages criteria) = movesPages stages := by
  rw [movesPages, any_canonical isPage_of_isSkip, any_canonical isPage_of_isLimit]
  rcases pagePart_cases stages with ⟨hm, hp⟩ | ⟨m, n, hm, hp⟩
  · rw [hm, hp]
    simpa [movesPages] using hm
  · rw [hm, hp]
    rfl

theorem find?_filter_isPage {q : Stage → Bool} (hq : ∀ s, q s = true → s.isPage = true)
    (stages : List Stage) : (stages.filter Stage.isPage).find? q = stages.find? q := by
  rw [List.find?_filter]
  congr
  funext s
  cases hs : q s with
  | false => simp
  | true => simp [hq s hs]

theorem pagePart_filter_isPage (stages : List Stage) :
    pagePart (stages.filter Stage.isPage) = pagePart stages := by
  rw [pagePart, find?_filter_isPage isPage_of_isSkip, find?_filter_isPage isPage_of_isLimit,
    pagePart]

theorem pagePart_canonical (stages : List Stage) (criteria : Dict) :
    pagePart (canonical stages criteria) = pagePart stages := by
  have hc := movesPages_canonical stages criteria
  rcases pagePart_cases stages with ⟨hm, hp⟩ | ⟨m, n, hm, hp⟩
  · rcases pagePart_cases (canonical stages criteria) with ⟨_, hp'⟩ | ⟨_, _, hm', _⟩
    · rw [hp, hp']
    · rw [hc, hm] at hm'
      cases hm'
  · rw [← pagePart_filter_isPage, filter_isPage_canonical hm, hp]
    rfl

theorem unmoved_canonical (stages : List Stage) (criteria : Dict) :
    unmoved (canonical stages criteria) = unmoved stages := by
  have hm : (matchPart stages criteria).filter (Stage.stays (movesPages stages)) = [] := by
    rw [List.filter_eq_nil_iff]
    intro s hs
    rw [eq_matching_of_mem_matchPart hs]
    exact Bool.false_ne_true
  have hu : (unmoved stages).filter (Stage.stays (movesPages stages)) = unmoved stages := by
    rw [unmoved, List.filter_filter]
    simp only [Bool.and_self]
  have ho : (sortPart stages).filter (Stage.stays (movesPages stages)) = [] := by
    rw [List.filter_eq_nil_iff]
    intro s hs
    rw [eq_sort_of_mem_sortPart hs]
    exact Bool.false_ne_true
  have hl : (pagePart stages).filter (Stage.stays (movesPages stages)) = [] := by
    rcases pagePart_cases stages with ⟨_, hp⟩ | ⟨m, n, hmoves, hp⟩
    · rw [hp]
      rfl
    · rw [hp, hmoves]
      rfl
  have hp : (projectPart stages).filter (Stage.stays (movesPages stages)) = [] := by
    rw [List.filter_eq_nil_iff]
    intro s hs
    obtain ⟨p, rfl⟩ := eq_project_of_mem_projectPart hs
    exact Bool.false_ne_true
  rw [unmoved, movesPages_canonical]
  simp only [canonical, List.filter_append, hm, hu, ho, hl, hp, List.nil_append, List.append_nil]

theorem canonical_canonical (stages : List Stage) (criteria : Dict) :
    canonical (canonical stages criteria) criteria = canonical stages criteria := by
  rw [canonical, matchPart_canonical, unmoved_canonical, sortPart_canonical, pagePart_canonical,
    projectPart_canonical, canonical]

theorem mergeAll_canonical {stages : List Stage} {criteria : Dict}
    (h : Criteria.mergeAll (stages.filterMap Stage.matching?) = .ok criteria) :
    Criteria.mergeAll ((canonical stages criteria).filterMap Stage.matching?) = .ok criteria := by
  rw [filterMap_matching?_canonical]
  split
  · rename_i hn
    rw [List.isEmpty_iff.mp hn] at h
    exact h
  · exact Criteria.mergeAll_singleton (Criteria.distinct_of_mergeAll h)

/-- Stages that were put into order stay as they are when they are put into order again. -/
theorem reorder_reorder {stages result : List Stage} (h : reorder stages = .ok result) :
    reorder result = .ok result := by
  rw [reorder_eq] at h
  cases hm : Criteria.mergeAll (stages.filterMap Stage.matching?) with
  | error cause =>
    rw [hm] at h
    cases h
  | ok criteria =>
    rw [hm] at h
    cases h
    rw [reorder_eq, mergeAll_canonical hm]
    exact congrArg Except.ok (canonical_canonical stages criteria)

theorem reorder_reorder_lone_limit :
    let stages : List Stage :=
      [.project [], .limit (.int 5), .sort [("name", .int 1), ("score", .int 1)],
        .matching [("$or", .list [])], .matching [("$or", .list [])], .sort [("name", .int (-1))],
        .matching [("$or", .list [])], .limit (.int 3)]
    let result : List Stage :=
      [.matching [("$and", .list [.map [("$or", .list [])], .map [("$or", .list [])]]),
          ("$or", .list [])],
        .limit (.int 5), .limit (.int 3), .sort [("name", .int (-1)), ("score", .int 1)],
        .project []]
    reorder stages = .ok result ∧ reorder result = .ok result := by
  intro stages result
  have h : reorder stages = .ok result := rfl
  exact ⟨h, reorder_reorder h⟩

end QueryPipeline.Pipeline
