import QueryPipeline.Proofs.Pipeline.CriteriaMeaning

namespace QueryPipeline

namespace Criteria

variable {target : Dict}

/-- Some entry cannot stand with what the entries before it have come to. -/
def Stuck (fold : Value → Value → Value) (entries : Dict) : Prop :=
  ∃ before e after old, entries = before ++ e :: after ∧
    Entries.get? (Entries.foldKeys fold before) e.1 = some old ∧ Clashes old e.2

/-- The same, behind entries that are there already. -/
def StuckFrom (target entries : Dict) : Prop :=
  ∃ before e after, entries = before ++ e :: after ∧
    ClashesIn (before.foldl (fun es e => Entries.putWith later es e.1 e.2) target) e

theorem stuckFrom_nil_iff {entries : Dict} : StuckFrom [] entries ↔ Stuck later entries := by
  simp only [StuckFrom, Stuck, ClashesIn, Entries.foldl_putWith, exists_and_left]

theorem not_stuckFrom_nil : ¬StuckFrom target [] := by
  rintro ⟨before, e, after, heq, _⟩
  cases before <;> cases heq

theorem stuckFrom_cons_iff {e : Scalar × Value} {rest : Dict} :
    StuckFrom target (e :: rest) ↔
      ClashesIn target e ∨ StuckFrom (Entries.putWith later target e.1 e.2) rest := by
  constructor
  · rintro ⟨before, f, after, heq, clash⟩
    cases before with
    | nil =>
      cases heq
      exact .inl clash
    | cons g before =>
      cases heq
      exact .inr ⟨before, f, after, rfl, clash⟩
  · rintro (clash | ⟨before, f, after, rfl, clash⟩)
    · exact ⟨[], e, rest, rfl, clash⟩
    · exact ⟨e :: before, f, after, rfl, clash⟩

/-- Entries that stand with each other two by two, and with what they come to, are never stuck. -/
theorem not_stuckFrom {r : Scalar × Value → Scalar × Value → Prop} {visits : Dict}
    (compatible : ∀ e f, r e f → (e.1 == f.1) = true → ¬Clashes e.2 f.2)
    (kept : ∀ e f g, (e.1 == f.1) = true → r e f → r e g → r f g → r (e.1, later e.2 f.2) g)
    (ht : ∀ e ∈ target, ∀ f ∈ visits, r e f) (hv : visits.Pairwise r) :
    ¬StuckFrom target visits := by
  induction visits generalizing target with
  | nil => exact not_stuckFrom_nil
  | cons e rest ih =>
    obtain ⟨he, hrest⟩ := List.pairwise_cons.mp hv
    rw [stuckFrom_cons_iff, not_or]
    constructor
    · rintro ⟨old, hg, clash⟩
      obtain ⟨t, hmem, hk, rfl⟩ := Entries.mem_of_get?_eq_some hg
      exact compatible t e (ht t hmem e List.mem_cons_self) hk clash
    · apply ih ?_ hrest
      intro t hmem f hf
      rcases Entries.mem_putWith hmem with hmem | rfl | ⟨x, hx, hk, rfl⟩
      · exact ht t hmem f (List.mem_cons_of_mem _ hf)
      · exact he f hf
      · exact kept x e f hk (ht x hx e List.mem_cons_self) (ht x hx f (List.mem_cons_of_mem _ hf))
          (he f hf)

theorem not_stuck_of_readable {entries : Dict} (h : ∀ e ∈ entries, ¬Unreadable e.2) :
    ¬Stuck later entries := by
  rw [← stuckFrom_nil_iff]
  apply not_stuckFrom (r := fun e f => ¬Unreadable e.2 ∧ ¬Unreadable f.2)
  · intro e f hr _ clash
    exact clash.elim hr.1 fun hnew => hr.2 hnew.2
  · intro e f g _ hef heg _
    exact ⟨later_readable hef.2, heg.2⟩
  · exact fun _ he => absurd he List.not_mem_nil
  · exact List.pairwise_of_forall_mem_list fun e he f hf => ⟨h e he, h f hf⟩

theorem merge_outcome {visits : Dict} (ht : Extendable target)
    (hv : ∀ e ∈ visits, e.1 = "$and" → ∃ documents, e.2 = .list documents) :
    StuckFrom (fieldEntries target) (fieldEntries visits) ∧
        merge target visits = .error .notText ∨
      ¬StuckFrom (fieldEntries target) (fieldEntries visits) ∧
        ∃ merged, merge target visits = .ok merged := by
  induction visits generalizing target with
  | nil => exact .inr ⟨not_stuckFrom_nil, target, rfl⟩
  | cons e rest ih =>
    obtain ⟨he, hrest⟩ := List.forall_mem_cons.mp hv
    rcases merges_or_clashes ht he with ⟨next, hm⟩ | ⟨hl, clash, hfault⟩
    · have hgo : merge target (e :: rest) = merge next rest := by
        rw [merge_cons, hm.mergeEntry_eq]
        rfl
      have hstuck : StuckFrom (fieldEntries target) (fieldEntries (e :: rest)) ↔
          StuckFrom (fieldEntries next) (fieldEntries rest) := by
        rw [hm.fieldEntries_eq]
        cases hl : isLogical e.1 with
        | true => rw [if_pos rfl, fieldEntries_cons_logical hl]
        | false =>
          rw [fieldEntries_cons_field hl, stuckFrom_cons_iff, clashesIn_fieldEntries hl,
            or_iff_right (hm.not_clashesIn hl), if_neg Bool.false_ne_true]
      rw [hgo, hstuck]
      exact ih (hm.extendable ht he) hrest
    · refine .inl ⟨?_, ?_⟩
      · rw [fieldEntries_cons_field hl, stuckFrom_cons_iff]
        exact .inl ((clashesIn_fieldEntries hl).mpr clash)
      · rw [merge_cons, hfault]
        rfl

theorem mergeAll_outcome {all : List Dict}
    (h : ∀ e ∈ all.flatten, e.1 = "$and" → ∃ documents, e.2 = .list documents) :
    Stuck later (fieldEntries all.flatten) ∧ mergeAll all = .error .notText ∨
      ¬Stuck later (fieldEntries all.flatten) ∧ ∃ merged, mergeAll all = .ok merged := by
  have hempty : Extendable [] := ⟨[], rfl⟩
  have hrun := merge_outcome hempty h
  rw [← mergeAll_eq] at hrun
  rwa [← stuckFrom_nil_iff]

/-- No entry is by `$and`, and the keys of every value can be read. -/
def Mergeable (criteria : Dict) : Prop :=
  ∀ e ∈ criteria, e.1 ≠ "$and" ∧ ¬Unreadable e.2

theorem mergeAll_total_of_mergeable {all : List Dict} (h : ∀ criteria ∈ all, Mergeable criteria) :
    ∃ merged, mergeAll all = .ok merged := by
  have hall : Mergeable all.flatten := by
    intro e he
    obtain ⟨criteria, hc, he⟩ := List.mem_flatten.mp he
    exact h criteria hc e he
  rcases mergeAll_outcome fun e he hand => absurd hand (hall e he).1 with hstuck | hrun
  · refine absurd hstuck.1 (not_stuck_of_readable fun e he => ?_)
    exact (hall e (List.mem_filter.mp he).1).2
  · exact hrun.2

end Criteria

theorem Pipeline.mergeAll_total {stages : List Stage}
    (h : ∀ criteria, .matching criteria ∈ stages → Criteria.Mergeable criteria) :
    ∃ merged, Criteria.mergeAll (stages.filterMap Stage.matching?) = .ok merged := by
  apply Criteria.mergeAll_total_of_mergeable
  intro criteria hc
  obtain ⟨stage, hs, hstage⟩ := List.mem_filterMap.mp hc
  obtain rfl : stage = .matching criteria := by cases stage <;> cases hstage; rfl
  exact h criteria hs

end QueryPipeline
