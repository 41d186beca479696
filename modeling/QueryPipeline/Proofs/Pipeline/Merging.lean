import QueryPipeline.Proofs.Pipeline.Combining
import QueryPipeline.Proofs.Value.Equality

namespace QueryPipeline.Criteria

/-- The clauses under `$and`: none when there is no such key, and unknown when there is no list
under it. -/
def clausesOf (target : Dict) : Option (List Value) :=
  match Entries.get? target "$and" with
  | none => some []
  | some (.list clauses) => some clauses
  | some _ => none

/-- What may become of `target` when an entry is merged into it. -/
inductive Merges (target : Dict) : Scalar → Value → Dict → Prop where
  | fresh {key : Scalar} {value : Value} (absent : Entries.get? target key = none) :
    Merges target key value (Entries.put target key value)
  | alternatives {old value : Value} {clauses : List Value}
      (present : Entries.get? target "$or" = some old) (listed : clausesOf target = some clauses) :
    Merges target "$or" value (Entries.put (Entries.erase target "$or") "$and"
      (.list (clauses ++ [orClause old, orClause value])))
  | conjuncts {old value sum : Value} (present : Entries.get? target "$and" = some old)
      (added : old.add value = .ok sum) :
    Merges target "$and" value (Entries.put target "$and" sum)
  | collision {key : Scalar} {old value : Value} (present : Entries.get? target key = some old)
      (notOr : key ≠ "$or") (notAnd : key ≠ "$and") (compatible : ¬Clashes old value) :
    Merges target key value (Entries.put target key (later old value))

theorem merges_of_mergeEntry {target merged : Dict} {key : Scalar} {value : Value}
    (h : mergeEntry target key value = .ok merged) : Merges target key value merged := by
  unfold mergeEntry at h
  split at h
  · cases h
    exact .fresh ‹_›
  · rename_i old present
    split at h
    · rename_i hor
      cases Scalar.beq_text_iff.mp hor
      dsimp only at h
      split at h
      · rename_i absent
        cases h
        exact .alternatives present (by rw [clausesOf, absent])
      · rename_i clauses listed
        cases h
        exact .alternatives present (by rw [clausesOf, listed])
      · cases h
    · rename_i hor
      have notOr : key ≠ "$or" := fun he => hor (Scalar.beq_text_iff.mpr he)
      split at h
      · rename_i hand
        cases Scalar.beq_text_iff.mp hand
        cases hadd : old.add value with
        | error e =>
          rw [hadd] at h
          cases h
        | ok sum =>
          rw [hadd] at h
          cases h
          exact .conjuncts present hadd
      · rename_i hand
        have notAnd : key ≠ "$and" := fun he => hand (Scalar.beq_text_iff.mpr he)
        by_cases clash : Clashes old value
        · rw [combine_clash clash] at h
          cases h
        · rw [combine_of_not_clashes clash] at h
          cases h
          exact .collision present notOr notAnd clash

theorem Merges.mergeEntry_eq {target merged : Dict} {key : Scalar} {value : Value}
    (h : Merges target key value merged) : mergeEntry target key value = .ok merged := by
  cases h with
  | fresh absent => simp only [mergeEntry, absent]
  | alternatives present listed =>
    rw [clausesOf] at listed
    split at listed
    · rename_i absent
      cases listed
      simp [mergeEntry, present, absent]
    · rename_i clauses under
      cases listed
      simp [mergeEntry, present, under]
    · cases listed
  | conjuncts present added =>
    simp [mergeEntry, present, added, bind, Except.bind, pure, Except.pure]
  | collision present notOr notAnd compatible =>
    have hor : (key == "$or") = false := Scalar.beq_text_eq_false_iff.mpr notOr
    have hand : (key == "$and") = false := Scalar.beq_text_eq_false_iff.mpr notAnd
    simp only [mergeEntry, present, hor, hand, Bool.false_eq_true, ↓reduceIte]
    rw [combine_of_not_clashes compatible]
    rfl

theorem mergeEntry_clash {target : Dict} {key : Scalar} {old value : Value}
    (present : Entries.get? target key = some old) (notOr : key ≠ "$or") (notAnd : key ≠ "$and")
    (clash : Clashes old value) : mergeEntry target key value = .error .notText := by
  have hor : (key == "$or") = false := Scalar.beq_text_eq_false_iff.mpr notOr
  have hand : (key == "$and") = false := Scalar.beq_text_eq_false_iff.mpr notAnd
  simp only [mergeEntry, present, hor, hand, Bool.false_eq_true, ↓reduceIte]
  rw [combine_clash clash]
  rfl

theorem Merges.distinct {target merged : Dict} {key : Scalar} {value : Value}
    (h : Merges target key value merged) (ht : Entries.Distinct target) :
    Entries.Distinct merged := by
  cases h with
  | fresh => exact ht.put _ _
  | alternatives => exact (ht.erase _).put _ _
  | conjuncts => exact ht.put _ _
  | collision => exact ht.put _ _

theorem merge_cons (target : Dict) (e : Scalar × Value) (rest : Dict) :
    merge target (e :: rest) = mergeEntry target e.1 e.2 >>= fun next => merge next rest := by
  rw [merge, List.foldlM_cons]
  rfl

theorem mergeAll_eq (all : List Dict) : mergeAll all = merge [] all.flatten := by
  have h (target : Dict) : all.foldlM merge target = merge target all.flatten := by
    induction all generalizing target with
    | nil => rfl
    | cons criteria rest ih =>
      rw [List.foldlM_cons, List.flatten_cons, merge, merge, List.foldlM_append]
      exact bind_congr ih
  exact h []

theorem merge_cons_ok {e : Scalar × Value} {rest target merged : Dict} :
    merge target (e :: rest) = .ok merged ↔
      ∃ next, Merges target e.1 e.2 next ∧ merge next rest = .ok merged := by
  rw [merge_cons]
  constructor
  · intro h
    cases he : mergeEntry target e.1 e.2 with
    | error cause =>
      rw [he] at h
      cases h
    | ok next =>
      rw [he] at h
      exact ⟨next, merges_of_mergeEntry he, h⟩
  · intro hrun
    obtain ⟨next, he, h⟩ := hrun
    rw [he.mergeEntry_eq]
    exact h

theorem distinct_of_merge {visits target merged : Dict} (ht : Entries.Distinct target)
    (h : merge target visits = .ok merged) : Entries.Distinct merged := by
  induction visits generalizing target with
  | nil =>
    cases h
    exact ht
  | cons e rest ih =>
    obtain ⟨next, he, h⟩ := merge_cons_ok.mp h
    exact ih (he.distinct ht) h

theorem distinct_of_mergeAll {all : List Dict} {criteria : Dict} (h : mergeAll all = .ok criteria) :
    Entries.Distinct criteria := by
  rw [mergeAll_eq] at h
  exact distinct_of_merge .nil h

theorem merge_of_distinct {criteria target : Dict} (h : Entries.Distinct (target ++ criteria)) :
    merge target criteria = .ok (target ++ criteria) := by
  induction criteria generalizing target with
  | nil => rw [List.append_nil]; rfl
  | cons e rest ih =>
    have absent : Entries.get? target e.1 = none := h.get?_eq_none
    have hput : Entries.put target e.1 e.2 = target ++ [e] :=
      Entries.put_of_get?_eq_none absent e.2
    rw [List.append_cons] at h ⊢
    rw [merge_cons, (Merges.fresh absent).mergeEntry_eq, hput]
    exact ih h

theorem mergeAll_singleton {criteria : Dict} (h : Entries.Distinct criteria) :
    mergeAll [criteria] = .ok criteria := by
  rw [mergeAll_eq, List.flatten_cons, List.flatten_nil, List.append_nil]
  exact merge_of_distinct h

end QueryPipeline.Criteria
