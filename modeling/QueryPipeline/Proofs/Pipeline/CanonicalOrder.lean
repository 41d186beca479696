import Mathlib.Data.List.TakeWhile
import QueryPipeline.Pipeline.Order
import QueryPipeline.Proofs.Entries

namespace QueryPipeline

namespace Stage

def stays (pagesMove : Bool) (s : Stage) : Bool :=
  !(s.isMatching || s.isSort || s.isProject || (pagesMove && s.isPage))

theorem eq_sort_of_isSort {s : Stage} (h : s.isSort = true) : ∃ spec, s = .sort spec := by
  cases s <;> first | exact ⟨_, rfl⟩ | cases h

theorem eq_project_of_isProject {s : Stage} (h : s.isProject = true) : ∃ p, s = .project p := by
  cases s <;> first | exact ⟨_, rfl⟩ | cases h

theorem eq_of_isPage {s : Stage} (h : s.isPage = true) : ∃ n, s = .skip n ∨ s = .limit n := by
  cases s <;> first | exact ⟨_, .inl rfl⟩ | exact ⟨_, .inr rfl⟩ | cases h

end Stage

namespace Pipeline

/-- Pages move only when there are both a skip and a limit. -/
def movesPages (stages : List Stage) : Bool :=
  stages.any Stage.isSkip && stages.any Stage.isLimit

def unmoved (stages : List Stage) : List Stage :=
  stages.filter (Stage.stays (movesPages stages))

def matchPart (stages : List Stage) (criteria : Dict) : List Stage :=
  if (stages.filterMap Stage.matching?).isEmpty then [] else [.matching criteria]

/-- Every key at the place of its first visit, with the value of its last. -/
def lastVisits (specs : List Dict) : Dict :=
  Entries.foldKeys (fun _ later => later) specs.flatten

/-- The order in which sorts are visited: the first one by the score of a search, then those before
and those behind it. -/
def visitOrder (specs : List Dict) : List Dict :=
  let fromRelevance := specs.dropWhile fun spec => !hasRelevance spec
  fromRelevance.take 1 ++ (specs.takeWhile fun spec => !hasRelevance spec) ++ fromRelevance.drop 1

def mergedSpec (stages : List Stage) : Dict :=
  lastVisits (visitOrder (stages.filterMap Stage.sort?))

def sortPart (stages : List Stage) : List Stage :=
  if (mergedSpec stages).isEmpty then [] else [.sort (mergedSpec stages)]

def pagePart (stages : List Stage) : List Stage :=
  match stages.find? Stage.isSkip, stages.find? Stage.isLimit with
  | some skip, some limit => [skip, limit]
  | _, _ => []

def projectPart (stages : List Stage) : List Stage :=
  let projections := stages.filterMap Stage.project?
  if projections.isEmpty then [] else [.project (lastVisits projections)]

/-- The canonical order of the stages, where `criteria` are those of all matches. -/
def canonical (stages : List Stage) (criteria : Dict) : List Stage :=
  matchPart stages criteria ++ unmoved stages ++ sortPart stages ++ pagePart stages ++
    projectPart stages

theorem eraseP_eq {α : Type} (p : α → Bool) (l : List α) :
    l.eraseP p = l.takeWhile (fun a => !p a) ++ (l.dropWhile fun a => !p a).drop 1 := by
  induction l with
  | nil => rfl
  | cons a l ih => cases h : p a <;> simp [h, ih]

theorem relevanceFirst_eq_visitOrder (specs : List Dict) :
    relevanceFirst specs = visitOrder specs := by
  rw [relevanceFirst, List.find?_eq_head?_dropWhile_not, eraseP_eq, visitOrder]
  cases hd : specs.dropWhile fun spec => !hasRelevance spec with
  | nil =>
    have ht := List.takeWhile_append_dropWhile (p := fun spec => !hasRelevance spec) (l := specs)
    rw [hd, List.append_nil] at ht
    simp [ht]
  | cons spec rest => simp

theorem union_eq_lastVisits (specs : List Dict) : union specs = lastVisits specs := by
  rw [union, Entries.foldl_update, Entries.update_nil, lastVisits]

theorem consolidateSort_eq (stages : List Stage) :
    consolidateSort stages = (stages.filter fun s => !s.isSort) ++ sortPart stages := by
  rw [consolidateSort, relevanceFirst_eq_visitOrder, union_eq_lastVisits, sortPart, mergedSpec]
  split
  · rw [List.append_nil]
  · rfl

theorem relocatePage_eq (stages : List Stage) :
    relocatePage stages =
      (stages.filter fun s => !(movesPages stages && s.isPage)) ++ pagePart stages := by
  simp only [relocatePage, pagePart, movesPages, ← List.isSome_find?]
  cases stages.find? Stage.isSkip with
  | none => simp [List.filter_eq_self.mpr]
  | some skip =>
    cases stages.find? Stage.isLimit with
    | none => simp [List.filter_eq_self.mpr]
    | some limit => simp

theorem filter_eq_self_of_filterMap_nil {α : Type} {f : Stage → Option α} {stages : List Stage}
    (h : stages.filterMap f = []) : (stages.filter fun s => !(f s).isSome) = stages := by
  rw [List.filter_eq_self]
  intro s hs
  rw [List.filterMap_eq_nil_iff.mp h s hs]
  rfl

theorem relocateProjection_eq (stages : List Stage) :
    relocateProjection stages = (stages.filter fun s => !s.isProject) ++ projectPart stages := by
  simp only [relocateProjection, union_eq_lastVisits, projectPart]
  split
  · rename_i h
    rw [List.append_nil]
    exact (filter_eq_self_of_filterMap_nil (List.isEmpty_iff.mp h)).symm
  · rfl

theorem consolidateMatch_eq (stages : List Stage) :
    consolidateMatch stages =
      (fun criteria => matchPart stages criteria ++ stages.filter fun s => !s.isMatching) <$>
        Criteria.mergeAll (stages.filterMap Stage.matching?) := by
  simp only [consolidateMatch, matchPart]
  split
  · rename_i h
    rw [List.isEmpty_iff.mp h]
    exact congrArg Except.ok (filter_eq_self_of_filterMap_nil (List.isEmpty_iff.mp h)).symm
  · rfl

theorem eq_matching_of_mem_matchPart {stages : List Stage} {criteria : Dict} {s : Stage}
    (h : s ∈ matchPart stages criteria) : s = .matching criteria := by
  rw [matchPart] at h
  split at h
  · cases h
  · exact List.mem_singleton.mp h

theorem eq_sort_of_mem_sortPart {stages : List Stage} {s : Stage} (h : s ∈ sortPart stages) :
    s = .sort (mergedSpec stages) := by
  rw [sortPart] at h
  split at h
  · cases h
  · exact List.mem_singleton.mp h

theorem eq_project_of_mem_projectPart {stages : List Stage} {s : Stage}
    (h : s ∈ projectPart stages) : ∃ p, s = .project p := by
  rw [projectPart] at h
  split at h
  · cases h
  · exact ⟨_, List.mem_singleton.mp h⟩

/-- The page moves as a whole or not at all. -/
theorem pagePart_cases (stages : List Stage) :
    (movesPages stages = false ∧ pagePart stages = []) ∨
      ∃ m n, movesPages stages = true ∧ pagePart stages = [.skip m, .limit n] := by
  simp only [pagePart, movesPages, ← List.isSome_find?]
  cases hs : stages.find? Stage.isSkip with
  | none => exact .inl ⟨rfl, rfl⟩
  | some skip =>
    cases hl : stages.find? Stage.isLimit with
    | none => exact .inl ⟨rfl, rfl⟩
    | some limit =>
      have hskip := List.find?_some hs
      have hlimit := List.find?_some hl
      cases skip <;> cases hskip
      cases limit <;> cases hlimit
      exact .inr ⟨_, _, rfl, rfl⟩

theorem isPage_of_mem_pagePart {stages : List Stage} {s : Stage} (h : s ∈ pagePart stages) :
    s.isPage = true := by
  rcases pagePart_cases stages with ⟨_, hp⟩ | ⟨m, n, _, hp⟩
  · rw [hp] at h
    cases h
  · rw [hp, List.mem_cons, List.mem_singleton] at h
    rcases h with rfl | rfl
    · rfl
    · rfl

section Frame

variable {α : Type} {f : Stage → Option α} {q : Stage → Bool}

theorem filterMap_sortPart (h : ∀ spec, f (.sort spec) = none) (stages : List Stage) :
    (sortPart stages).filterMap f = [] :=
  List.filterMap_eq_nil_iff.mpr fun _ hs => eq_sort_of_mem_sortPart hs ▸ h _

theorem filterMap_pagePart (hs : ∀ n, f (.skip n) = none) (hl : ∀ n, f (.limit n) = none)
    (stages : List Stage) : (pagePart stages).filterMap f = [] := by
  rcases pagePart_cases stages with ⟨_, hp⟩ | ⟨m, n, _, hp⟩
  · rw [hp, List.filterMap_nil]
  · rw [hp, List.filterMap_cons_none (hs m), List.filterMap_cons_none (hl n), List.filterMap_nil]

theorem filterMap_projectPart (h : ∀ p, f (.project p) = none) (stages : List Stage) :
    (projectPart stages).filterMap f = [] := by
  rw [List.filterMap_eq_nil_iff]
  intro s hs
  obtain ⟨p, rfl⟩ := eq_project_of_mem_projectPart hs
  exact h p

theorem filterMap_filter_not {p : Stage → Bool} (h : ∀ s, p s = true → f s = none)
    (stages : List Stage) : (stages.filter fun s => !p s).filterMap f = stages.filterMap f := by
  rw [List.filterMap_filter]
  congr
  funext s
  cases hp : p s with
  | true => exact (h s hp).symm
  | false => rfl

theorem find?_filter_not {p : Stage → Bool} (h : ∀ s, p s = true → q s = false)
    (stages : List Stage) : (stages.filter fun s => !p s).find? q = stages.find? q := by
  rw [List.find?_filter]
  congr
  funext s
  cases hp : p s with
  | true => simp [h s hp]
  | false => simp

theorem filterMap_consolidateSort (h : ∀ spec, f (.sort spec) = none) (stages : List Stage) :
    (consolidateSort stages).filterMap f = stages.filterMap f := by
  rw [consolidateSort_eq, List.filterMap_append, filterMap_sortPart h, List.append_nil]
  apply filterMap_filter_not
  intro s hp
  obtain ⟨spec, rfl⟩ := Stage.eq_sort_of_isSort hp
  exact h spec

theorem find?_consolidateSort (h : ∀ spec, q (.sort spec) = false) (stages : List Stage) :
    (consolidateSort stages).find? q = stages.find? q := by
  have hs : (sortPart stages).find? q = none := by
    rw [List.find?_eq_none]
    intro s hs
    rw [eq_sort_of_mem_sortPart hs, h]
    exact Bool.false_ne_true
  rw [consolidateSort_eq, List.find?_append, hs, Option.or_none]
  apply find?_filter_not
  intro s hp
  obtain ⟨spec, rfl⟩ := Stage.eq_sort_of_isSort hp
  exact h spec

theorem filterMap_relocatePage (hs : ∀ n, f (.skip n) = none) (hl : ∀ n, f (.limit n) = none)
    (stages : List Stage) : (relocatePage stages).filterMap f = stages.filterMap f := by
  rw [relocatePage_eq, List.filterMap_append, filterMap_pagePart hs hl, List.append_nil]
  apply filterMap_filter_not (p := fun s => movesPages stages && s.isPage)
  intro s hp
  rcases Stage.eq_of_isPage (Bool.and_eq_true_iff.mp hp).2 with ⟨n, rfl | rfl⟩
  · exact hs n
  · exact hl n

theorem filterMap_relocateProjection (h : ∀ p, f (.project p) = none)
    (stages : List Stage) : (relocateProjection stages).filterMap f = stages.filterMap f := by
  rw [relocateProjection_eq, List.filterMap_append, filterMap_projectPart h, List.append_nil]
  apply filterMap_filter_not
  intro s hp
  obtain ⟨p, rfl⟩ := Stage.eq_project_of_isProject hp
  exact h p

end Frame

theorem pagePart_consolidateSort (stages : List Stage) :
    pagePart (consolidateSort stages) = pagePart stages := by
  rw [pagePart, find?_consolidateSort (fun _ => rfl), find?_consolidateSort (fun _ => rfl),
    pagePart]

theorem movesPages_consolidateSort (stages : List Stage) :
    movesPages (consolidateSort stages) = movesPages stages := by
  simp only [movesPages, ← List.isSome_find?]
  rw [find?_consolidateSort (fun _ => rfl), find?_consolidateSort (fun _ => rfl)]

theorem projectPart_relocatePage (stages : List Stage) :
    projectPart (relocatePage (consolidateSort stages)) = projectPart stages := by
  rw [projectPart, filterMap_relocatePage (fun _ => rfl) (fun _ => rfl),
    filterMap_consolidateSort (fun _ => rfl), projectPart]

theorem filter_passes (stages : List Stage) :
    ((relocateProjection (relocatePage (consolidateSort stages))).filter
      fun s => !s.isMatching) =
      unmoved stages ++ sortPart stages ++ pagePart stages ++ projectPart stages := by
  have hs : (sortPart stages).filter (fun s => !s.isMatching && (!s.isProject &&
      !(movesPages stages && s.isPage))) = sortPart stages := by
    rw [List.filter_eq_self]
    intro s hs
    rw [eq_sort_of_mem_sortPart hs]
    cases movesPages stages <;> rfl
  have hl : (pagePart stages).filter (fun s => !s.isMatching && !s.isProject) =
      pagePart stages := by
    rw [List.filter_eq_self]
    intro s hs
    rcases Stage.eq_of_isPage (isPage_of_mem_pagePart hs) with ⟨n, rfl | rfl⟩ <;> rfl
  have hq : (projectPart stages).filter (fun s => !s.isMatching) = projectPart stages := by
    rw [List.filter_eq_self]
    intro s hs
    obtain ⟨p, rfl⟩ := eq_project_of_mem_projectPart hs
    rfl
  have hu : stages.filter (fun s => !s.isMatching && (!s.isProject &&
      (!(movesPages stages && s.isPage) && !s.isSort))) = unmoved stages := by
    apply List.filter_congr
    intro s _
    cases s <;> cases movesPages stages <;> rfl
  rw [relocateProjection_eq, projectPart_relocatePage, relocatePage_eq, pagePart_consolidateSort,
    movesPages_consolidateSort, consolidateSort_eq]
  simp only [List.filter_append, List.filter_filter, hs, hl, hq, hu]

/-- The passes together, as one step. -/
theorem reorder_eq (stages : List Stage) :
    reorder stages =
      canonical stages <$> Criteria.mergeAll (stages.filterMap Stage.matching?) := by
  have hm : (relocateProjection (relocatePage (consolidateSort stages))).filterMap
      Stage.matching? = stages.filterMap Stage.matching? := by
    rw [filterMap_relocateProjection (fun _ => rfl),
      filterMap_relocatePage (fun _ => rfl) (fun _ => rfl),
      filterMap_consolidateSort (fun _ => rfl)]
  rw [reorder, consolidateMatch_eq, hm]
  congr
  funext criteria
  rw [filter_passes, matchPart, hm, canonical, matchPart]
  simp only [List.append_assoc]

theorem mem_unmoved {stages : List Stage} {s : Stage} :
    s ∈ unmoved stages ↔ s ∈ stages ∧ s.isMatching = false ∧ s.isSort = false ∧
      s.isProject = false ∧ (movesPages stages && s.isPage) = false := by
  simp only [unmoved, Stage.stays, List.mem_filter, Bool.not_eq_true', Bool.or_eq_false_iff,
    and_assoc]

theorem filterMap_unmoved {α : Type} {f : Stage → Option α}
    (h : ∀ s, s.isMatching = false → s.isSort = false → s.isProject = false → f s = none)
    (stages : List Stage) : (unmoved stages).filterMap f = [] := by
  rw [List.filterMap_eq_nil_iff]
  intro s hs
  obtain ⟨_, hm, ho, hp, _⟩ := mem_unmoved.mp hs
  exact h s hm ho hp

theorem filterMap_canonical {α : Type} (f : Stage → Option α) (stages : List Stage)
    (criteria : Dict) :
    (canonical stages criteria).filterMap f =
      (matchPart stages criteria).filterMap f ++ (unmoved stages).filterMap f ++
        (sortPart stages).filterMap f ++ (pagePart stages).filterMap f ++
        (projectPart stages).filterMap f := by
  simp only [canonical, List.filterMap_append]

theorem filterMap_matching?_canonical (stages : List Stage) (criteria : Dict) :
    (canonical stages criteria).filterMap Stage.matching? =
      if (stages.filterMap Stage.matching?).isEmpty then [] else [criteria] := by
  have hu : (unmoved stages).filterMap Stage.matching? = [] := by
    apply filterMap_unmoved
    intro s hm _ _
    cases s <;> first | rfl | cases hm
  rw [filterMap_canonical, hu, filterMap_sortPart (fun _ => rfl),
    filterMap_pagePart (fun _ => rfl) (fun _ => rfl), filterMap_projectPart (fun _ => rfl)]
  simp only [List.append_nil, matchPart]
  split <;> rfl

theorem filterMap_sort?_canonical (stages : List Stage) (criteria : Dict) :
    (canonical stages criteria).filterMap Stage.sort? =
      if (mergedSpec stages).isEmpty then [] else [mergedSpec stages] := by
  have hm : (matchPart stages criteria).filterMap Stage.sort? = [] := by
    rw [matchPart]
    split <;> rfl
  have hu : (unmoved stages).filterMap Stage.sort? = [] := by
    apply filterMap_unmoved
    intro s _ ho _
    cases s <;> first | rfl | cases ho
  rw [filterMap_canonical, hm, hu, filterMap_pagePart (fun _ => rfl) (fun _ => rfl),
    filterMap_projectPart (fun _ => rfl)]
  simp only [List.append_nil, List.nil_append, sortPart]
  split <;> rfl

theorem filterMap_project?_canonical (stages : List Stage) (criteria : Dict) :
    (canonical stages criteria).filterMap Stage.project? =
      if (stages.filterMap Stage.project?).isEmpty then []
      else [lastVisits (stages.filterMap Stage.project?)] := by
  have hm : (matchPart stages criteria).filterMap Stage.project? = [] := by
    rw [matchPart]
    split <;> rfl
  have hu : (unmoved stages).filterMap Stage.project? = [] := by
    apply filterMap_unmoved
    intro s _ _ hp
    cases s <;> first | rfl | cases hp
  rw [filterMap_canonical, hm, hu, filterMap_sortPart (fun _ => rfl),
    filterMap_pagePart (fun _ => rfl) (fun _ => rfl)]
  simp only [List.nil_append, projectPart]
  split <;> rfl

theorem filter_isPage_canonical {stages : List Stage} (h : movesPages stages = true)
    (criteria : Dict) : (canonical stages criteria).filter Stage.isPage = pagePart stages := by
  have hm : (matchPart stages criteria).filter Stage.isPage = [] := by
    rw [matchPart]
    split <;> rfl
  have hu : (unmoved stages).filter Stage.isPage = [] := by
    rw [List.filter_eq_nil_iff]
    intro s hs
    have hp := (mem_unmoved.mp hs).2.2.2.2
    rw [h, Bool.true_and] at hp
    rw [hp]
    exact Bool.false_ne_true
  have ho : (sortPart stages).filter Stage.isPage = [] := by
    rw [sortPart]
    split <;> rfl
  have hl : (pagePart stages).filter Stage.isPage = pagePart stages :=
    List.filter_eq_self.mpr fun _ hs => isPage_of_mem_pagePart hs
  have hq : (projectPart stages).filter Stage.isPage = [] := by
    rw [projectPart]
    split <;> rfl
  simp only [canonical, List.filter_append, hm, hu, ho, hl, hq, List.nil_append, List.append_nil]

/-- Stages that can be put into order come out as the merged match, the stages that stay, the merged
sort, the page and the merged projection, with nothing twice that could be merged. -/
theorem reorder_canonical {stages result : List Stage} (h : reorder stages = .ok result) :
    ∃ criteria, (stages.filterMap Stage.matching?).foldlM Criteria.merge [] = .ok criteria ∧
      result = matchPart stages criteria ++ unmoved stages ++ sortPart stages ++ pagePart stages ++
        projectPart stages ∧
      (result.filterMap Stage.matching?).length ≤ 1 ∧
      (result.filterMap Stage.sort?).length ≤ 1 ∧
      (result.filterMap Stage.project?).length ≤ 1 ∧
      (movesPages stages = true → result.filter Stage.isPage = pagePart stages) := by
  rw [reorder_eq] at h
  cases hm : Criteria.mergeAll (stages.filterMap Stage.matching?) with
  | error e =>
    rw [hm] at h
    cases h
  | ok criteria =>
    rw [hm] at h
    cases h
    refine ⟨criteria, hm, rfl, ?_, ?_, ?_, fun hp => filter_isPage_canonical hp criteria⟩
    · rw [filterMap_matching?_canonical]
      split <;> simp
    · rw [filterMap_sort?_canonical]
      split <;> simp
    · rw [filterMap_project?_canonical]
      split <;> simp

theorem reorder_canonical_repeated_kinds :
    let stages : List Stage :=
      [.project [("name", .int 1)], .skip (.int 10), .sort [("name", .int 1)], .limit (.int 5),
        .matching [("$or", .list [])], .sort [("score", .int (-1)), ("name", .int (-1))],
        .count (.text "total"), .skip (.int 20), .matching [("$or", .list [.map []])], .sort []]
    let result : List Stage :=
      [.matching [("$and", .list [.map [("$or", .list [])], .map [("$or", .list [.map []])]])],
        .count (.text "total"), .sort [("score", .int (-1)), ("name", .int 1)],
        .skip (.int 10), .limit (.int 5), .project [("name", .int 1)]]
    reorder stages = .ok result ∧
      ∃ criteria, (stages.filterMap Stage.matching?).foldlM Criteria.merge [] = .ok criteria ∧
        result = matchPart stages criteria ++ unmoved stages ++ sortPart stages ++
          pagePart stages ++ projectPart stages ∧
        (result.filterMap Stage.matching?).length ≤ 1 ∧
        (result.filterMap Stage.sort?).length ≤ 1 ∧
        (result.filterMap Stage.project?).length ≤ 1 ∧
        (movesPages stages = true → result.filter Stage.isPage = pagePart stages) :=
  ⟨rfl, reorder_canonical rfl⟩

end Pipeline

end QueryPipeline
