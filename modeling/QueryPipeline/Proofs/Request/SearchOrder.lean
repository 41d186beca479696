import Mathlib.Data.List.Perm.Subperm
import QueryPipeline.Proofs.Clause.SortKeys
import QueryPipeline.Proofs.Pipeline.CanonicalOrder
import QueryPipeline.Proofs.Pipeline.MergeOutcome
import QueryPipeline.Proofs.Request.CallOrder

namespace QueryPipeline.Sort

def mentions (text : String) : List (List Char × Int) :=
  ((Text.splitOn ';' text.toList).map readToken).filter fun token => token.1 ≠ []

def scoreDirections (text : String) : List Int :=
  ((mentions text).filter fun mention => mention.1 = relevanceField.toList).map Prod.snd

/-- The score is the first field that a sort names, and when it descends at some mention it does so
at the last one. -/
structure LeadsByScore (text : String) : Prop where
  first : ∃ direction rest, mentions text = (relevanceField.toList, direction) :: rest
  last : -1 ∈ scoreDirections text → (scoreDirections text).getLast? = some (-1)

theorem readToken_score_descending {token : List Char} :
    readToken token = (relevanceField.toList, -1) ↔
      Text.strip token = '-' :: relevanceField.toList := by
  rw [readToken]
  split
  · rename_i field heq
    rw [heq]
    simp
  · rename_i hminus
    constructor
    · intro h
      exact absurd (Prod.mk.inj h).2 (by decide)
    · intro h
      exact absurd h (hminus _)

theorem readToken_score_ascending {token : List Char} :
    readToken token = (relevanceField.toList, 1) ↔ Text.strip token = relevanceField.toList := by
  rw [readToken]
  split
  · rename_i field heq
    rw [heq]
    simp [relevanceField]
  · simp

theorem direction_of_readToken (token : List Char) :
    (readToken token).2 = -1 ∨ (readToken token).2 = 1 := by
  rw [readToken]
  split
  · exact .inl rfl
  · exact .inr rfl

theorem mem_scoreDirections {text : String} {direction : Int} :
    direction ∈ scoreDirections text ↔
      ∃ token ∈ Text.splitOn ';' text.toList,
        readToken token = (relevanceField.toList, direction) := by
  simp only [scoreDirections, mentions, List.mem_map, List.mem_filter, decide_eq_true_eq]
  constructor
  · intro h
    obtain ⟨mention, ⟨⟨⟨token, ht, rfl⟩, _⟩, hscore⟩, rfl⟩ := h
    exact ⟨token, ht, Prod.ext hscore rfl⟩
  · intro h
    obtain ⟨token, ht, hread⟩ := h
    have hnamed : relevanceField.toList ≠ [] := by decide
    exact ⟨_, ⟨⟨⟨token, ht, hread⟩, hnamed⟩, rfl⟩, rfl⟩

theorem direction_of_mem {text : String} {direction : Int}
    (h : direction ∈ scoreDirections text) : direction = -1 ∨ direction = 1 := by
  obtain ⟨token, _, hread⟩ := mem_scoreDirections.mp h
  have hdirection := direction_of_readToken token
  rwa [hread] at hdirection

/-- A search sorts descending when the score is mentioned descending anywhere. -/
theorem directionOf_eq (text : String) :
    Search.directionOf text =
      if -1 ∈ scoreDirections text then some (-1)
      else if scoreDirections text = [] then none else some 1 := by
  have hdescending : ((Text.splitOn ';' text.toList).map Text.strip).contains
      ('-' :: relevanceField.toList) = true ↔ -1 ∈ scoreDirections text := by
    rw [List.contains_iff_mem, List.mem_map, mem_scoreDirections]
    simp only [readToken_score_descending]
  have hascending : ((Text.splitOn ';' text.toList).map Text.strip).contains
      relevanceField.toList = true ↔ 1 ∈ scoreDirections text := by
    rw [List.contains_iff_mem, List.mem_map, mem_scoreDirections]
    simp only [readToken_score_ascending]
  simp only [Search.directionOf, hdescending, hascending]
  split
  · rfl
  · rename_i hnone
    have hempty : scoreDirections text = [] ↔ 1 ∉ scoreDirections text := by
      constructor
      · intro h
        rw [h]
        exact List.not_mem_nil
      · intro h
        refine List.eq_nil_iff_forall_not_mem.mpr fun direction hd => ?_
        rcases direction_of_mem hd with rfl | rfl
        · exact hnone hd
        · exact h hd
    by_cases h : 1 ∈ scoreDirections text
    · rw [if_pos h, if_neg (fun hnil => hempty.mp hnil h)]
    · rw [if_neg h, if_pos (hempty.mpr h)]

/-- The sort ends up in the direction of the search when its last mention of the score descends, or
none does. -/
theorem getLast?_eq_direction_iff {text : String} (hscore : scoreDirections text ≠ [])
    {direction : Int} (hd : Search.directionOf text = some direction) :
    (scoreDirections text).getLast? = some direction ↔
      (-1 ∈ scoreDirections text → (scoreDirections text).getLast? = some (-1)) := by
  rw [directionOf_eq] at hd
  by_cases hdescends : -1 ∈ scoreDirections text
  · rw [if_pos hdescends] at hd
    cases hd
    exact ⟨fun h _ => h, fun h => h hdescends⟩
  · rw [if_neg hdescends, if_neg hscore] at hd
    cases hd
    refine ⟨fun _ h => absurd h hdescends, fun _ => ?_⟩
    obtain ⟨last, hlast⟩ := Option.ne_none_iff_exists'.mp
      fun hnone => hscore (List.getLast?_eq_none_iff.mp hnone)
    have hmem : last ∈ scoreDirections text := List.mem_of_getLast? hlast
    rcases direction_of_mem hmem with rfl | rfl
    · exact absurd hmem hdescends
    · exact hlast

def visit (mention : List Char × Int) : Scalar × Value :=
  (.text (String.ofList mention.1), .int mention.2)

theorem readSpec_eq (text : String) :
    Dict.ofEntries (readSpec text) =
      Entries.foldKeys (fun _ later => later) ((mentions text).map visit) := by
  rw [readSpec, Dict.ofEntries_ofList, Entries.ofList, Entries.update_nil, Dict.ofEntries,
    List.map_map]
  rfl

theorem getLast?_cons_eq_foldl {α : Type} (a : α) (rest : List α) :
    (a :: rest).getLast? = some (rest.foldl (fun _ later => later) a) := by
  induction rest generalizing a with
  | nil => rfl
  | cons b rest ih => rw [List.getLast?_cons_cons, ih, List.foldl_cons]

theorem foldl_last_map {α β : Type} (f : α → β) (a : α) (rest : List α) :
    (rest.map f).foldl (fun _ later => later) (f a) =
      f (rest.foldl (fun _ later => later) a) := by
  induction rest generalizing a with
  | nil => rfl
  | cons b rest ih => exact ih b

theorem score_beq_visit (mention : List Char × Int) :
    (Scalar.text relevanceField == (visit mention).1) =
      decide (mention.1 = relevanceField.toList) := by
  rw [visit, Scalar.text_beq_text, Bool.eq_iff_iff, beq_iff_eq, decide_eq_true_eq]
  constructor
  · intro h
    rw [h, String.toList_ofList]
  · intro h
    rw [h, String.ofList_toList]

theorem valuesUnder_score (all : List (List Char × Int)) :
    Entries.valuesUnder (.text relevanceField) (all.map visit) =
      ((all.filter fun mention => mention.1 = relevanceField.toList).map Prod.snd).map .int := by
  rw [Entries.valuesUnder, List.filter_map, List.map_map, List.map_map]
  have hfilter : ((fun e => Scalar.text relevanceField == e.1) ∘ visit) =
      fun mention => decide (mention.1 = relevanceField.toList) := funext score_beq_visit
  rw [hfilter]
  rfl

/-- A sort starts with the score when that is the first field that it names. -/
theorem exists_readSpec_eq_iff {text : String} {direction : Int} :
    (∃ rest, Dict.ofEntries (readSpec text) = (.text relevanceField, .int direction) :: rest) ↔
      (∃ first rest, mentions text = (relevanceField.toList, first) :: rest) ∧
        (scoreDirections text).getLast? = some direction := by
  rw [readSpec_eq]
  cases hm : mentions text with
  | nil => simp [Entries.foldKeys_nil]
  | cons mention later =>
    obtain ⟨field, first⟩ := mention
    rw [List.map_cons, visit, Entries.foldKeys_cons]
    by_cases hfield : field = relevanceField.toList
    · subst hfield
      rw [String.ofList_toList, valuesUnder_score, foldl_last_map, scoreDirections, hm,
        List.filter_cons, if_pos (decide_eq_true rfl), List.map_cons, getLast?_cons_eq_foldl]
      simp
    · have hne : String.ofList field ≠ relevanceField := by
        intro h
        rw [← h, String.toList_ofList] at hfield
        exact hfield rfl
      simp [hfield, hne]

theorem mentions_empty : mentions "" = [] := by decide

theorem text_ne_empty {text : String} (h : scoreDirections text ≠ []) : text ≠ "" := by
  rintro rfl
  exact h (by rw [scoreDirections, mentions_empty]; rfl)

theorem exists_mention {text : String} (h : scoreDirections text ≠ []) :
    ∃ direction, (relevanceField.toList, direction) ∈ mentions text := by
  obtain ⟨direction, hd⟩ := List.exists_mem_of_ne_nil _ h
  obtain ⟨⟨field, direction⟩, hm, rfl⟩ := List.mem_map.mp hd
  obtain ⟨hm, hfield⟩ := List.mem_filter.mp hm
  exact ⟨direction, of_decide_eq_true hfield ▸ hm⟩

theorem has_score {text : String} (h : scoreDirections text ≠ []) :
    Entries.has (Dict.ofEntries (readSpec text)) (.text relevanceField) = true := by
  obtain ⟨direction, hm⟩ := exists_mention h
  rw [readSpec_eq]
  refine Entries.has_foldKeys (List.mem_map_of_mem hm) ?_
  exact Scalar.beq_text_iff.mpr (congrArg Scalar.text (String.ofList_toList ..))

end QueryPipeline.Sort

namespace QueryPipeline.Session

open Pipeline

variable {s : Session}

theorem filter_eq_of_sublist {picked clauses : List Clause} (hsub : picked.Sublist clauses)
    (hnodup : (clauses.map Clause.operation).Nodup) :
    (clauses.filter fun clause => clause.operation ∈ picked.map Clause.operation) = picked := by
  have hkept := hsub.filter fun clause => clause.operation ∈ picked.map Clause.operation
  rw [List.filter_eq_self.mpr fun clause hc => decide_eq_true (List.mem_map_of_mem hc)] at hkept
  refine (hkept.eq_of_length_le ?_).symm
  rw [← List.length_map Clause.operation, ← List.length_map Clause.operation]
  refine (List.subperm_of_subset (hnodup.sublist (List.filter_sublist.map _)) ?_).length_le
  intro operation ho
  obtain ⟨clause, hc, rfl⟩ := List.mem_map.mp ho
  exact of_decide_eq_true (List.mem_filter.mp hc).2

theorem filterMap_flatMap_added {α : Type} {f : Stage → Option α} {picked clauses : List Clause}
    (hf : ∀ stage : Stage, stage.owner ∉ picked.map Clause.operation → f stage = none)
    (hsearch : .search ∈ picked.map Clause.operation) (hsub : picked.Sublist clauses)
    (hnodup : (clauses.map Clause.operation).Nodup) :
    (clauses.flatMap s.added).filterMap f = (picked.flatMap s.added).filterMap f := by
  have hother : ∀ clause : Clause, clause.operation ∉ picked.map Clause.operation →
      (s.added clause).filterMap f = [] := by
    intro clause hc
    rw [List.filterMap_eq_nil_iff]
    intro stage hs
    apply hf
    rwa [owner_of_mem_added (fun he => hc (he ▸ hsearch)) hs]
  have hfilter (all : List Clause) : (all.flatMap s.added).filterMap f =
      ((all.filter fun clause => clause.operation ∈ picked.map Clause.operation).flatMap
        s.added).filterMap f := by
    induction all with
    | nil => rfl
    | cons clause rest ih =>
      rw [List.flatMap_cons, List.filterMap_append, ih, List.filter_cons]
      split
      · rw [List.flatMap_cons, List.filterMap_append]
      · rename_i hc
        rw [hother clause (fun hm => hc (decide_eq_true hm)), List.nil_append]
  rw [hfilter clauses, filter_eq_of_sublist hsub hnodup]

theorem added_search {fields : Value} :
    s.added (.search fields) =
      match Search.read s.parameters fields with
      | .ok search => search.stages s.scope
      | .error _ => [] := by
  rw [added, outcome, compile]
  cases Search.read s.parameters fields <;> rfl

def scoreSort (direction : Int) : Dict :=
  [(.text relevanceField, .int direction)]

theorem filterMap_sort?_search (scope : Scope) (search : Search) :
    (search.stages scope).filterMap Stage.sort? =
      if search.isApplicable scope then search.direction.toList.map scoreSort else [] := by
  rw [Search.stages]
  split
  · cases search.direction <;> rfl
  · rfl

theorem direction_of_read {q : QueryObject} {fields : Value} {search : Search}
    (h : Search.read q fields = .ok search) :
    search.direction = Search.directionOf (q.controlText "sort") := by
  obtain ⟨names, _, h⟩ := Outcome.bind_eq_ok_iff.mp h
  cases h
  rfl

theorem filterMap_sort?_sort {text : String} (htext : s.parameters.controlText "sort" = text)
    (hscore : Sort.scoreDirections text ≠ []) :
    (s.added .sort).filterMap Stage.sort? = [Dict.ofEntries (Sort.readSpec text)] := by
  have hread : Sort.read s.scope s.parameters = .ok (Dict.ofEntries (Sort.readSpec text)) := by
    rw [Sort.read, htext]
    exact if_neg (Sort.text_ne_empty hscore)
  have hspec : (Dict.ofEntries (Sort.readSpec text)).isEmpty = false := by
    have hhas := Sort.has_score hscore
    cases hd : Dict.ofEntries (Sort.readSpec text) with
    | nil =>
      rw [hd] at hhas
      cases hhas
    | cons e rest => rfl
  have hadded : s.added .sort = Sort.stages (Dict.ofEntries (Sort.readSpec text)) := by
    rw [added, outcome, compile, hread]
    rfl
  rw [hadded, Sort.stages, hspec, if_neg Bool.false_ne_true]
  rfl

theorem hasRelevance_of_has {spec : Dict}
    (h : Entries.has spec (.text relevanceField) = true) : hasRelevance spec = true := by
  change (Entries.has spec (.text relevanceField) || _) = true
  rw [h, Bool.true_or]

theorem hasRelevance_scoreSort (direction : Int) : hasRelevance (scoreSort direction) = true := by
  apply hasRelevance_of_has
  rw [scoreSort, Entries.has, Entries.get?_cons, if_pos (Scalar.beq_text_iff.mpr rfl)]
  rfl

/-- A sort by the score that was added first stays in front. -/
theorem visitOrder_of_hasRelevance {spec : Dict} (h : hasRelevance spec = true)
    (later : List Dict) : visitOrder (spec :: later) = spec :: later := by
  simp [visitOrder, h]

/-- With the score in the sort, the two sorts commute just when the sort leads with it. -/
theorem lastVisits_scoreSort_comm_iff {text : String} (hscore : Sort.scoreDirections text ≠ [])
    {direction : Int} (hd : Search.directionOf text = some direction) :
    lastVisits (visitOrder [scoreSort direction, Dict.ofEntries (Sort.readSpec text)]) =
        lastVisits (visitOrder [Dict.ofEntries (Sort.readSpec text), scoreSort direction]) ↔
      Sort.LeadsByScore text := by
  have hhas := Sort.has_score hscore
  have hdistinct : Entries.Distinct (Dict.ofEntries (Sort.readSpec text)) := by
    rw [Sort.readSpec_eq]
    exact Entries.distinct_foldKeys _ _
  have hcomm : lastVisits [scoreSort direction, Dict.ofEntries (Sort.readSpec text)] =
        lastVisits [Dict.ofEntries (Sort.readSpec text), scoreSort direction] ↔
      ∃ rest, Dict.ofEntries (Sort.readSpec text) =
        (.text relevanceField, .int direction) :: rest := by
    simp only [lastVisits, List.flatten_cons, List.flatten_nil, List.append_nil]
    exact hdistinct.foldKeys_cons_eq_concat_iff (Scalar.beq_text_iff.mpr rfl) hhas _
  rw [visitOrder_of_hasRelevance (hasRelevance_scoreSort direction),
    visitOrder_of_hasRelevance (hasRelevance_of_has hhas), hcomm, Sort.exists_readSpec_eq_iff]
  constructor
  · intro hsame
    exact ⟨hsame.1, (Sort.getLast?_eq_direction_iff hscore hd).mp hsame.2⟩
  · intro hleads
    exact ⟨hleads.first, (Sort.getLast?_eq_direction_iff hscore hd).mpr hleads.last⟩

theorem filterMap_sort?_finish {p : CompiledPipeline} (hcompiled : s.compiled = none)
    (hp : s.finish.1 = .ok p) :
    p.stages.filterMap Stage.sort? =
      if (mergedSpec s.stages).isEmpty then [] else [mergedSpec s.stages] := by
  rw [finish_eq hcompiled, reorder_eq] at hp
  obtain ⟨stages, hs, rfl⟩ := Outcome.map_eq_ok_iff.mp hp
  obtain ⟨criteria, _, rfl⟩ := Outcome.map_eq_ok_iff.mp (Outcome.lift_eq_ok_iff.mp hs)
  exact filterMap_sort?_canonical s.stages criteria

theorem sortStages_eq_iff {spec spec' : Dict} :
    (if spec.isEmpty then [] else [spec]) = (if spec'.isEmpty then [] else [spec']) ↔
      spec = spec' := by
  cases spec <;> cases spec' <;> simp

theorem lastVisits_added_comm_iff (s : Session) (fields : Value) :
    lastVisits (visitOrder (([.search fields, .sort].flatMap s.added).filterMap Stage.sort?)) =
        lastVisits (visitOrder (([.sort, .search fields].flatMap s.added).filterMap Stage.sort?)) ↔
      ∀ search, Search.read s.parameters fields = .ok search →
        search.isApplicable s.scope = true →
        Sort.scoreDirections (s.parameters.controlText "sort") ≠ [] →
        Sort.LeadsByScore (s.parameters.controlText "sort") := by
  simp only [List.flatMap_cons, List.flatMap_nil, List.append_nil, List.filterMap_append,
    added_search]
  cases hread : Search.read s.parameters fields with
  | error m => simp
  | ok search =>
    simp only [filterMap_sort?_search, Except.ok.injEq, forall_eq']
    by_cases happlies : search.isApplicable s.scope = true
    · by_cases hscore : Sort.scoreDirections (s.parameters.controlText "sort") = []
      · have hnone : search.direction = none := by
          rw [direction_of_read hread, Sort.directionOf_eq, hscore]
          rfl
        simp [hnone, hscore]
      · obtain ⟨direction, hd⟩ : ∃ direction, search.direction = some direction := by
          rw [direction_of_read hread, Sort.directionOf_eq, if_neg hscore]
          split
          · exact ⟨_, rfl⟩
          · exact ⟨_, rfl⟩
        have hd' := hd
        rw [direction_of_read hread] at hd'
        rw [if_pos happlies, hd, filterMap_sort?_sort rfl hscore]
        simp only [happlies, hscore, ne_eq, not_false_eq_true, forall_const]
        exact lastVisits_scoreSort_comm_iff hscore hd'
    · simp [happlies]

section Runs

variable {source : SchemaSource} {settings : Settings} {query language : Value}
  {lines : List LogLine} {fields : Value} {clauses clauses' : List Clause}

theorem applyAll_of_start (hstart : start source settings query language = (lines, .ok s))
    (hnodup : (clauses.map Clause.operation).Nodup) :
    (s.applyAll clauses).2.compiled = none ∧
      (s.applyAll clauses).2.stages = clauses.flatMap s.added := by
  obtain ⟨hstages, happlied, hcompiled⟩ := start_open hstart
  have hfresh : ∀ clause ∈ clauses, clause.operation ∉ s.applied := by
    intro clause _ hm
    rw [happlied] at hm
    cases hm
  obtain ⟨_, _, hopen, hadded⟩ := applyAll_of_open rfl rfl hcompiled hnodup hfresh
  rw [hstages, List.nil_append] at hadded
  exact ⟨hopen, hadded⟩

theorem filterMap_sort?_applyAll {picked : List Clause} {p : CompiledPipeline}
    (hstart : start source settings query language = (lines, .ok s))
    (hnodup : (clauses.map Clause.operation).Nodup) (hsub : picked.Sublist clauses)
    (hsearch : .search ∈ picked.map Clause.operation)
    (hsort : .sort ∈ picked.map Clause.operation)
    (hp : (s.applyAll clauses).2.finish.1 = .ok p) :
    let spec := lastVisits (visitOrder ((picked.flatMap s.added).filterMap Stage.sort?))
    p.stages.filterMap Stage.sort? = if spec.isEmpty then [] else [spec] := by
  obtain ⟨hopen, hadded⟩ := applyAll_of_start hstart hnodup
  have hsorts : (clauses.flatMap s.added).filterMap Stage.sort? =
      (picked.flatMap s.added).filterMap Stage.sort? := by
    refine filterMap_flatMap_added (fun stage hs => ?_) hsearch hsub hnodup
    exact sort?_eq_none stage fun howner => hs (howner ▸ hsort)
  rw [filterMap_sort?_finish hopen hp, mergedSpec, hadded, hsorts]

theorem mergeable_of_mem_search {search : Search} {criteria : Dict}
    (h : .matching criteria ∈ search.stages s.scope) : Criteria.Mergeable criteria := by
  rw [Search.stages] at h
  split at h
  · simp only [List.mem_append, List.mem_cons, List.not_mem_nil, or_false, reduceCtorEq,
      Stage.matching.injEq] at h
    rcases h with rfl | h
    · intro e he
      rw [List.mem_singleton.mp he]
      exact ⟨by simp, Criteria.not_unreadable_of_ne_keyed nofun⟩
    · split at h <;> simp at h
  · cases h

def Mergeable (s : Session) : Prop :=
  ∀ criteria : Dict, .matching criteria ∈ s.stages → Criteria.Mergeable criteria

theorem Mergeable.finish_ok (h : s.Mergeable) : ∃ p, s.finish.1 = .ok p := by
  cases hcompiled : s.compiled with
  | some p => exact ⟨p, by rw [finish, hcompiled]⟩
  | none =>
    obtain ⟨merged, hmerged⟩ := mergeAll_total fun _ hc => h _ hc
    rw [finish_eq hcompiled, reorder_eq, hmerged]
    exact ⟨_, rfl⟩

/-- Only the matches of filters may not merge. -/
theorem finish_ok_of_unfiltered (hstart : start source settings query language = (lines, .ok s))
    (hnodup : (clauses.map Clause.operation).Nodup)
    (hfilter : ∀ clause ∈ clauses, clause.operation ≠ .filter) :
    ∃ p, (s.applyAll clauses).2.finish.1 = .ok p := by
  obtain ⟨_, hadded⟩ := applyAll_of_start hstart hnodup
  apply Mergeable.finish_ok
  intro criteria hs
  rw [hadded] at hs
  obtain ⟨clause, hclause, hs⟩ := List.mem_flatMap.mp hs
  by_cases hsearch : clause.operation = .search
  · cases clause <;> cases hsearch
    rw [added_search] at hs
    split at hs
    · exact mergeable_of_mem_search hs
    · cases hs
  · exact absurd (owner_of_mem_added hsearch hs).symm (hfilter clause hclause)

/-- A search and a sort give the same sort in either order just when the search adds no sort of its
own or the sort leads with the score. Other clauses, wherever they stand, have no part in it. -/
theorem search_sort_alike_iff (hstart : start source settings query language = (lines, .ok s))
    (hnodup : (clauses.map Clause.operation).Nodup)
    (hnodup' : (clauses'.map Clause.operation).Nodup)
    (hsub : [.search fields, .sort].Sublist clauses)
    (hsub' : [.sort, .search fields].Sublist clauses') :
    ((∀ clause ∈ clauses ++ clauses', clause.operation ≠ .filter) →
      ∃ p p', (s.applyAll clauses).2.finish.1 = .ok p ∧
        (s.applyAll clauses').2.finish.1 = .ok p') ∧
    ∀ p p', (s.applyAll clauses).2.finish.1 = .ok p →
      (s.applyAll clauses').2.finish.1 = .ok p' →
      (p.stages.filterMap Stage.sort? = p'.stages.filterMap Stage.sort? ↔
        ∀ search, Search.read s.parameters fields = .ok search →
          search.isApplicable s.scope = true →
          Sort.scoreDirections (s.parameters.controlText "sort") ≠ [] →
          Sort.LeadsByScore (s.parameters.controlText "sort")) := by
  constructor
  · intro hfilter
    obtain ⟨hf, hf'⟩ := List.forall_mem_append.mp hfilter
    obtain ⟨p, hp⟩ := finish_ok_of_unfiltered hstart hnodup hf
    obtain ⟨p', hp'⟩ := finish_ok_of_unfiltered hstart hnodup' hf'
    exact ⟨p, p', hp, hp'⟩
  · intro p p' hp hp'
    have hsorts := filterMap_sort?_applyAll hstart hnodup hsub (by simp [Clause.operation])
      (by simp [Clause.operation]) hp
    have hsorts' := filterMap_sort?_applyAll hstart hnodup' hsub' (by simp [Clause.operation])
      (by simp [Clause.operation]) hp'
    rw [hsorts, hsorts', sortStages_eq_iff, lastVisits_added_comm_iff]

end Runs

theorem search_sort_alike_iff_descending :
    let schema : Schema :=
      { origin := .mapping, modelName := none, fields := [("name", { type := .string })],
        translatable := [], collection := none }
    let query : Value := .map [("search", .text "blue"), ("sort", .text "-relevance;name")]
    let s : Session :=
      { scope := { schema, settings := {}, asked := none }
        parameters :=
          { control := [("search", .text "blue"), ("sort", .text "-relevance;name")],
            filters := [], joins := [] } }
    let clauses : List Clause := [.search (.text "name"), .sort]
    let clauses' : List Clause := [.sort, .paginate, .search (.text "name")]
    start (.schema schema) {} query .null = ([], .ok s) ∧
      ((∀ clause ∈ clauses ++ clauses', clause.operation ≠ .filter) →
        ∃ p p', (s.applyAll clauses).2.finish.1 = .ok p ∧
          (s.applyAll clauses').2.finish.1 = .ok p') ∧
      ∀ p p', (s.applyAll clauses).2.finish.1 = .ok p →
        (s.applyAll clauses').2.finish.1 = .ok p' →
        (p.stages.filterMap Stage.sort? = p'.stages.filterMap Stage.sort? ↔
          ∀ search, Search.read s.parameters (.text "name") = .ok search →
            search.isApplicable s.scope = true →
            Sort.scoreDirections (s.parameters.controlText "sort") ≠ [] →
            Sort.LeadsByScore (s.parameters.controlText "sort")) := by
  intro schema query s clauses clauses'
  have hstart : start (.schema schema) {} query .null = ([], .ok s) := rfl
  have hsub : [.search (.text "name"), .sort].Sublist clauses := List.Sublist.refl _
  have hsub' : [.sort, .search (.text "name")].Sublist clauses' := .cons_cons _ (.cons _ (.refl _))
  exact ⟨hstart, search_sort_alike_iff hstart (by decide) (by decide) hsub hsub'⟩

/-- Behind another field the score is the first key only when the search comes first. -/
theorem search_sort_differ_behind_name :
    let schema : Schema :=
      { origin := .mapping, modelName := none, fields := [("name", { type := .string })],
        translatable := [], collection := none }
    let query : Value := .map [("search", .text "blue"), ("sort", .text "name;relevance")]
    let s : Session :=
      { scope := { schema, settings := {}, asked := none }
        parameters :=
          { control := [("search", .text "blue"), ("sort", .text "name;relevance")],
            filters := [], joins := [] } }
    let byName : Dict := [(.text "name", .int 1), (.text "relevance", .int 1)]
    start (.schema schema) {} query .null = ([], .ok s) ∧
      ∃ p p', (s.applyAll [.search (.text "name"), .sort]).2.finish.1 = .ok p ∧
        (s.applyAll [.sort, .search (.text "name")]).2.finish.1 = .ok p' ∧
        p.stages.filterMap Stage.sort? =
          [[(.text "relevance", .int 1), (.text "name", .int 1)]] ∧
        p'.stages.filterMap Stage.sort? = [byName] ∧
        p.stages.filterMap Stage.sort? ≠ p'.stages.filterMap Stage.sort? := by
  intro schema query s byName
  have hstart : start (.schema schema) {} query .null = ([], .ok s) := rfl
  have hnodup : ([.search (.text "name"), .sort].map Clause.operation).Nodup := by decide
  have hnodup' : ([.sort, .search (.text "name")].map Clause.operation).Nodup := by decide
  obtain ⟨p, hp⟩ := finish_ok_of_unfiltered hstart hnodup (by decide)
  obtain ⟨p', hp'⟩ := finish_ok_of_unfiltered hstart hnodup' (by decide)
  have hsearch : (s.added (.search (.text "name"))).filterMap Stage.sort? = [scoreSort 1] := by
    subst s schema
    rfl
  have hsort : (s.added .sort).filterMap Stage.sort? = [byName] := by
    subst s schema
    rfl
  have hmerged : union (visitOrder [scoreSort 1, byName]) =
      [(.text "relevance", .int 1), (.text "name", .int 1)] := rfl
  have hmerged' : union (visitOrder [byName, scoreSort 1]) = byName := rfl
  have hsorts := filterMap_sort?_applyAll hstart hnodup (.refl _) (by decide) (by decide) hp
  have hsorts' := filterMap_sort?_applyAll hstart hnodup' (.refl _) (by decide) (by decide) hp'
  simp only [List.flatMap_cons, List.flatMap_nil, List.append_nil, List.filterMap_append,
    List.cons_append, List.nil_append, hsearch, hsort, ← union_eq_lastVisits, hmerged,
    hmerged'] at hsorts hsorts'
  refine ⟨hstart, p, p', hp, hp', hsorts, hsorts', ?_⟩
  rw [hsorts, hsorts']
  simp [byName]

end QueryPipeline.Session
