import QueryPipeline.Proofs.Clause.FilterCriteria
import QueryPipeline.Proofs.Pipeline.MergeOutcome

namespace QueryPipeline

/-- The filter compares with no map that has keys of other kinds than text. -/
def Expression.Comparable : Expression → Prop
  | .equals _ (.keyed _) => False
  | _ => True

theorem Expression.Filters.comparable {schema : Schema} {e : Expression} (h : e.Filters schema) :
    e.Comparable := by
  cases h with
  | equals known spelled => cases spelled <;> trivial
  | operator => trivial
  | regex => trivial

section Reading

variable {schema : Schema} {e : Expression}

theorem comparable_of_readOperator {field suffix op : String} {v : Value}
    (h : readOperator schema field suffix op v = .ok (.filter e)) : e.Comparable := by
  unfold readOperator at h
  split at h
  · split at h
    · cases h
    · cases h
    · cases h
      trivial
  · cases h

theorem comparable_of_readPlain {field : String} {v : Value}
    (h : readPlain schema field v = .ok (.filter e)) : e.Comparable := by
  unfold readPlain at h
  split at h
  · cases v with
    | map entries =>
      dsimp only at h
      split at h
      · cases h
      · cases h
        trivial
      · cases h
    | keyed entries => cases h
    | _ =>
      cases h
      trivial
  · cases h

theorem comparable_of_classify {path : String} {v : Value}
    (h : classify schema path v = .ok (.filter e)) : e.Comparable := by
  unfold classify at h
  dsimp only at h
  split at h
  · unfold readJoin at h
    split at h
    · obtain ⟨payload, _, h⟩ := Outcome.bind_eq_ok_iff.mp h
      cases h
    · cases h
  · split at h
    · exact comparable_of_readOperator h
    · exact comparable_of_readPlain h

theorem comparable_of_read {p : Parameter} (h : p.read schema = .ok (.filter e)) :
    e.Comparable := by
  cases p with
  | control key v =>
    unfold Parameter.read readControl at h
    dsimp only at h
    split at h
    · cases h
    · split at h <;> cases h
  | field path v => exact comparable_of_classify h
  | unnamed => cases h

theorem QueryObject.comparable_of_parse {query : Dict} {q : QueryObject}
    (h : parse schema query = .ok q) : ∀ e ∈ q.filters, e.Comparable := by
  obtain ⟨readings, hr, h⟩ := Outcome.bind_eq_ok_iff.mp h
  cases h
  intro e he
  obtain ⟨reading, hm, hfilter⟩ := List.mem_filterMap.mp he
  obtain ⟨p, _, hp⟩ := Outcome.mem_of_mapM_eq_ok hr hm
  cases reading <;> cases hfilter
  exact comparable_of_read hp

end Reading

theorem Coerce.values_readable {field : String} {type : Option FieldType} {v w : Value}
    (hv : ∀ entries, v ≠ .keyed entries) (h : values field type v = .ok w) :
    ¬Criteria.Unreadable w := by
  apply Criteria.not_unreadable_of_ne_keyed
  by_cases hlist : ∃ items, v = .list items
  · obtain ⟨items, rfl⟩ := hlist
    obtain ⟨converted, rfl, _⟩ := values_list_ok_iff.mp h
    exact nofun
  · rw [values_of_not_list fun items he => hlist ⟨items, he⟩] at h
    have hcomes := value_comes field type v
    rw [h] at hcomes
    cases hcomes with
    | converted lands =>
      obtain ⟨t, rfl⟩ | rfl := lands.scalar_or_same
      · exact nofun
      · exact hv

namespace Scope

variable {scope : Scope} {q : QueryObject}

theorem condition_readable {e : Expression} (he : e.Comparable) {condition : Value}
    (h : scope.condition e = .ok condition) : ¬Criteria.Unreadable condition := by
  cases e with
  | equals field v =>
    apply Coerce.values_readable ?_ h
    rintro entries rfl
    exact he
  | operator field op v =>
    obtain ⟨converted, _, h⟩ := Outcome.bind_eq_ok_iff.mp h
    cases h
    exact Criteria.not_unreadable_of_ne_keyed nofun
  | regex field text =>
    obtain ⟨pattern, rfl⟩ : ∃ entries, condition = .map entries := by
      have hcondition := Outcome.lift_eq_ok_iff.mp h
      unfold regexCondition at hcondition
      split at hcondition
      · cases hcondition
        exact ⟨_, rfl⟩
      · cases hcondition
    exact Criteria.not_unreadable_of_ne_keyed nofun
  | join key payload => cases h

theorem mergeable_anyPath {field : String} (hfield : field ≠ "$and") {condition : Value}
    (hcondition : ¬Criteria.Unreadable condition) :
    Criteria.Mergeable (.ofEntries (anyPath (scope.queryPaths field) condition)) := by
  intro e he
  rw [queryPaths] at he
  split at he
  · rw [List.mem_singleton.mp he]
    exact ⟨by simp, Criteria.not_unreadable_of_ne_keyed (by simp)⟩
  · rw [List.mem_singleton.mp he]
    exact ⟨fun heq => hfield (Scalar.text.inj heq), hcondition⟩

theorem mergeable_of_mem_filterStages (hfilters : ∀ e ∈ q.filters, e.Comparable)
    (hfield : ∀ e ∈ q.filters, e.field ≠ "$and") {stages : List Stage}
    (h : scope.filterStages q = .ok stages) {criteria : Dict} (hc : .matching criteria ∈ stages) :
    Criteria.Mergeable criteria := by
  obtain ⟨e, he, condition, hcondition, heq⟩ := exists_of_mem_filterStages h hc
  cases heq
  exact mergeable_anyPath (hfield e he) (condition_readable (hfilters e he) hcondition)

end Scope

end QueryPipeline
