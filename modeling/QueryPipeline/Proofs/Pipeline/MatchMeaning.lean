import QueryPipeline.Proofs.Pipeline.CanonicalOrder
import QueryPipeline.Proofs.Pipeline.MergeOutcome

namespace QueryPipeline

namespace Criteria

def Listed (criteria : Dict) : Prop :=
  ∀ e ∈ criteria, isLogical e.1 = true → ∃ documents, e.2 = .list documents

variable {atoms : Atoms} {target merged : Dict}

theorem Listed.and {e : Scalar × Value} {rest : Dict} (h : Listed (e :: rest))
    (hk : e.1 = "$and") : ∃ documents, e.2 = .list documents :=
  h e List.mem_cons_self (by rw [hk]; rfl)

theorem Listed.ands {visits : Dict} (h : Listed visits) :
    ∀ e ∈ visits, e.1 = "$and" → ∃ documents, e.2 = .list documents :=
  fun e he hk => h e he (by rw [hk]; rfl)

theorem Listed.tail {e : Scalar × Value} {rest : Dict} (h : Listed (e :: rest)) : Listed rest :=
  fun x hx => h x (List.mem_cons_of_mem _ hx)

theorem logicHolds_of_merge {visits : Dict} (ht : Extendable target) (hv : Listed visits)
    (h : merge target visits = .ok merged) :
    LogicHolds atoms merged ↔ LogicHolds atoms target ∧
      ∀ e ∈ visits, isLogical e.1 = true → EntryHolds atoms e.1 e.2 := by
  induction visits generalizing target with
  | nil =>
    cases h
    simp
  | cons e rest ih =>
    obtain ⟨next, hm, h⟩ := merge_cons_ok.mp h
    rw [ih (hm.extendable ht hv.and) hv.tail h, hm.logicHolds ht hv.and, List.forall_mem_cons,
      and_assoc]

theorem fieldEntries_of_merge {visits : Dict}
    (h : merge target visits = .ok merged) :
    fieldEntries merged = (fieldEntries visits).foldl
      (fun entries e => Entries.putWith later entries e.1 e.2) (fieldEntries target) := by
  induction visits generalizing target with
  | nil =>
    cases h
    rfl
  | cons e rest ih =>
    obtain ⟨next, hm, h⟩ := merge_cons_ok.mp h
    rw [ih h, hm.fieldEntries_eq]
    cases hl : isLogical e.1 with
    | true => rw [if_pos rfl, fieldEntries_cons_logical hl]
    | false =>
      rw [if_neg Bool.false_ne_true, fieldEntries_cons_field hl, List.foldl_cons]

/-- Folding two values of one field: documents of operators are united, where a repeated operator
takes the later operand, and in every other collision the later value replaces the earlier one. -/
structure FoldsLater (f : Value → Value → Value) : Prop where
  united : ∀ {v w : Value} {old new : Entries Value}, operators? v = some old →
    operators? w = some new → Entries.Distinct old →
    f v w = .map (Entries.foldKeys (fun _ later => later) (old ++ new))
  replaced : ∀ {v w : Value}, operators? v = none ∨ operators? w = none → f v w = w

theorem foldsLater_later : FoldsLater later where
  united := by
    intro v w old new hv hw hd
    rw [later, hv, hw]
    exact congrArg Value.map (Entries.update_eq_foldKeys hd new)
  replaced := by
    intro v w h
    rw [later]
    split
    · rename_i hv hw
      rcases h with h | h
      · cases h.symm.trans hv
      · cases h.symm.trans hw
    · rfl

/-- Two documents of operators that have no operator in common. -/
def Unites (v w : Value) : Prop :=
  ∃ old new, operators? v = some old ∧ operators? w = some new ∧ Entries.Distinct (old ++ new)

def Unite (e f : Scalar × Value) : Prop :=
  (e.1 == f.1) = true → Unites e.2 f.2

theorem Unites.entryHolds_later {key : Scalar} {v w : Value} (h : Unites v w) :
    EntryHolds atoms key (later v w) ↔ EntryHolds atoms key v ∧ EntryHolds atoms key w := by
  obtain ⟨old, new, hv, hw, hd⟩ := h
  rw [entryHolds_operators (operators?_later hv hw hd), entryHolds_operators hv,
    entryHolds_operators hw, List.forall_mem_append]

theorem Unites.later {u v w : Value} (huv : Unites u v) (huw : Unites u w) (hvw : Unites v w) :
    Unites (later u v) w := by
  obtain ⟨first, second, hu, hv, hd⟩ := huv
  obtain ⟨_, third, hu', hw, hd'⟩ := huw
  obtain ⟨_, _, hv', hw', hd''⟩ := hvw
  cases hu.symm.trans hu'
  cases hv.symm.trans hv'
  cases hw.symm.trans hw'
  refine ⟨first ++ second, third, operators?_later hu hv hd, hw, ?_⟩
  rw [Entries.Distinct, List.pairwise_append] at hd hd' hd'' ⊢
  refine ⟨List.pairwise_append.mpr hd, hd'.2.1, ?_⟩
  intro e he
  rcases List.mem_append.mp he with he | he
  · exact hd'.2.2 e he
  · exact hd''.2.2 e he

theorem not_stuck_of_unite {entries : Dict} (h : entries.Pairwise Unite) :
    ¬Stuck Criteria.later entries := by
  rw [← stuckFrom_nil_iff]
  refine not_stuckFrom ?_ ?_ (fun _ he => absurd he List.not_mem_nil) h
  · intro e f hr hk clash
    obtain ⟨old, new, ho, hn, _⟩ := hr hk
    exact clash.elim (readable_of_operators? ho) fun hnew => readable_of_operators? hn hnew.2
  · intro e f g hef he hg hfg hk
    exact (he hef).later (hg hk) (hfg ((BEq.congr_left hef).symm.trans hk))

theorem entryHolds_foldl {key : Scalar} {values : List Value} {v : Value}
    (h : (v :: values).Pairwise Unites) :
    EntryHolds atoms key (values.foldl later v) ↔ ∀ w ∈ v :: values, EntryHolds atoms key w := by
  induction values generalizing v with
  | nil => simp
  | cons w rest ih =>
    obtain ⟨hv, h⟩ := List.pairwise_cons.mp h
    obtain ⟨hw, hr⟩ := List.pairwise_cons.mp h
    have hvw := hv w List.mem_cons_self
    have hnext : (Criteria.later v w :: rest).Pairwise Unites := by
      refine .cons ?_ hr
      intro x hx
      exact hvw.later (hv x (List.mem_cons_of_mem _ hx)) (hw x hx)
    rw [List.foldl_cons, ih hnext, List.forall_mem_cons, hvw.entryHolds_later, and_assoc,
      List.forall_mem_cons, List.forall_mem_cons]

theorem entryHolds_congr {k l : Scalar} (h : (k == l) = true) (v : Value) :
    EntryHolds atoms k v ↔ EntryHolds atoms l v := by
  cases v with
  | list documents =>
    rw [EntryHolds, EntryHolds, BEq.congr_left h, BEq.congr_left h, atoms.plain_congr h]
  | _ => simp only [EntryHolds, atoms.plain_congr h, atoms.operator_congr h]

theorem pairwise_unites {k : Scalar} {v : Value} {rest : Dict}
    (h : ((k, v) :: rest).Pairwise Unite) :
    (v :: Entries.valuesUnder k rest).Pairwise Unites := by
  obtain ⟨hk, hr⟩ := List.pairwise_cons.mp h
  refine .cons ?_ ?_
  · intro w hw
    obtain ⟨e, he, hb, rfl⟩ := Entries.mem_valuesUnder.mp hw
    exact hk e he hb
  · rw [Entries.valuesUnder, List.pairwise_map, List.pairwise_filter]
    refine hr.imp ?_
    intro e f hef he hf
    exact hef ((BEq.congr_left he).symm.trans hf)

theorem entriesHold_visits {k : Scalar} {visits : Dict} :
    ((∀ w ∈ Entries.valuesUnder k visits, EntryHolds atoms k w) ∧
      ∀ e ∈ Entries.besides k visits, EntryHolds atoms e.1 e.2) ↔
      ∀ e ∈ visits, EntryHolds atoms e.1 e.2 := by
  constructor
  · intro hparts e he
    obtain ⟨hunder, hbesides⟩ := hparts
    cases hk : k == e.1 with
    | true =>
      rw [← entryHolds_congr hk]
      exact hunder e.2 (Entries.mem_valuesUnder.mpr ⟨e, he, hk, rfl⟩)
    | false => exact hbesides e (Entries.mem_besides.mpr ⟨he, hk⟩)
  · intro hall
    refine ⟨?_, fun e he => hall e (Entries.mem_besides.mp he).1⟩
    intro w hw
    obtain ⟨e, he, hk, rfl⟩ := Entries.mem_valuesUnder.mp hw
    rw [entryHolds_congr hk]
    exact hall e he

/-- Where repeated fields unite, folding them loses nothing. -/
theorem entriesHold_foldKeys {visits : Dict} (h : visits.Pairwise Unite) :
    (∀ e ∈ Entries.foldKeys later visits, EntryHolds atoms e.1 e.2) ↔
      ∀ e ∈ visits, EntryHolds atoms e.1 e.2 := by
  induction visits using Entries.foldKeys.induct with
  | case1 => rw [Entries.foldKeys_nil]
  | case2 k v rest ih =>
    have hb : (Entries.besides k rest).Pairwise Unite := (List.pairwise_cons.mp h).2.filter _
    rw [Entries.foldKeys_cons, List.forall_mem_cons, entryHolds_foldl (pairwise_unites h), ih hb,
      List.forall_mem_cons, List.forall_mem_cons, and_assoc, entriesHold_visits]

theorem logicalEntriesHold_iff {all : List Dict} (hl : ∀ criteria ∈ all, Listed criteria) :
    (∀ e ∈ all.flatten, isLogical e.1 = true → EntryHolds atoms e.1 e.2) ↔
      (∀ criteria ∈ all, ∀ alternatives, (.text "$or", .list alternatives) ∈ criteria →
        ∃ v ∈ alternatives, Holds atoms v) ∧
        ∀ criteria ∈ all, ∀ clauses, (.text "$and", .list clauses) ∈ criteria →
          ∀ v ∈ clauses, Holds atoms v := by
  constructor
  · intro h
    refine ⟨?_, ?_⟩
    · intro criteria hc alternatives hm
      exact entryHolds_or.mp (h _ (List.mem_flatten.mpr ⟨criteria, hc, hm⟩) rfl)
    · intro criteria hc clauses hm
      exact entryHolds_and.mp (h _ (List.mem_flatten.mpr ⟨criteria, hc, hm⟩) rfl)
  · intro hparts e he hk
    obtain ⟨hor, hand⟩ := hparts
    obtain ⟨key, value⟩ := e
    obtain ⟨criteria, hc, hm⟩ := List.mem_flatten.mp he
    obtain ⟨documents, rfl⟩ := hl criteria hc _ hm hk
    rcases eq_of_isLogical hk with rfl | rfl
    · exact entryHolds_or.mpr (hor criteria hc documents hm)
    · exact entryHolds_and.mpr (hand criteria hc documents hm)

/-- The logical entries of all matches stay, and the fields are folded. -/
theorem mergeAll_meaning {all : List Dict} {criteria : Dict} (hl : Listed all.flatten)
    (h : mergeAll all = .ok criteria) (atoms : Atoms) :
    DictHolds atoms criteria ↔
      (∀ e ∈ all.flatten, isLogical e.1 = true → EntryHolds atoms e.1 e.2) ∧
        ∀ e ∈ Entries.foldKeys later (fieldEntries all.flatten), EntryHolds atoms e.1 e.2 := by
  rw [mergeAll_eq] at h
  have hnil : LogicHolds atoms [] := ⟨fun _ h => (nomatch h), fun _ h => (nomatch h)⟩
  have hfields : fieldEntries criteria = Entries.foldKeys later (fieldEntries all.flatten) := by
    rw [fieldEntries_of_merge h]
    exact Entries.foldl_putWith later (fieldEntries all.flatten)
  rw [dictHolds_iff_of_distinct (distinct_of_merge .nil h), logicHolds_of_merge ⟨[], rfl⟩ hl h,
    hfields, and_iff_right hnil]

theorem dictHolds_flatten {all : List Dict} :
    DictHolds atoms all.flatten ↔ ∀ criteria ∈ all, DictHolds atoms criteria := by
  simp only [dictHolds_iff, List.mem_flatten]
  constructor
  · intro h criteria hc e he
    exact h e ⟨criteria, hc, he⟩
  · intro h e hmem
    obtain ⟨criteria, hc, he⟩ := hmem
    exact h criteria hc e he

theorem dictHolds_iff_logical_and_field {criteria : Dict} :
    DictHolds atoms criteria ↔
      (∀ e ∈ criteria, isLogical e.1 = true → EntryHolds atoms e.1 e.2) ∧
        ∀ e ∈ fieldEntries criteria, EntryHolds atoms e.1 e.2 := by
  rw [dictHolds_iff]
  constructor
  · intro h
    exact ⟨fun e he _ => h e he, fun e he => h e (List.mem_filter.mp he).1⟩
  · intro hparts e he
    obtain ⟨hl, hf⟩ := hparts
    cases hk : isLogical e.1 with
    | true => exact hl e he hk
    | false => exact hf e (List.mem_filter.mpr ⟨he, by rw [hk, Bool.not_false]⟩)

end Criteria

namespace Pipeline

open Criteria

def matchFields (stages : List Stage) : Dict :=
  fieldEntries (stages.filterMap Stage.matching?).flatten

/-- Merging matches loses no condition: every alternative and every clause of every match stays,
and where a field comes again its values are folded. So the merged match says what all matches say,
unless a field comes twice with values that do not unite. There is no merged match when a field
comes again and its values cannot be told to be documents of operators: then a map that stands under
it has a key that is no text. -/
theorem consolidateMatch_meaning {stages : List Stage}
    (hne : stages.filterMap Stage.matching? ≠ [])
    (hl : ∀ criteria ∈ stages.filterMap Stage.matching?, Listed criteria) :
    ∃ fold, FoldsLater fold ∧
      (Stuck fold (matchFields stages) ∧ consolidateMatch stages = .error .notText ∨
        ¬Stuck fold (matchFields stages) ∧
          ∃ merged, consolidateMatch stages =
              .ok (.matching merged :: stages.filter fun s => !s.isMatching) ∧
            ∀ atoms : Atoms,
              (DictHolds atoms merged ↔
                (∀ criteria ∈ stages.filterMap Stage.matching?,
                  ∀ alternatives, (.text "$or", .list alternatives) ∈ criteria →
                    ∃ v ∈ alternatives, Holds atoms v) ∧
                (∀ criteria ∈ stages.filterMap Stage.matching?,
                  ∀ clauses, (.text "$and", .list clauses) ∈ criteria →
                    ∀ v ∈ clauses, Holds atoms v) ∧
                ∀ e ∈ Entries.foldKeys fold (matchFields stages), EntryHolds atoms e.1 e.2) ∧
              ((matchFields stages).Pairwise Unite →
                (DictHolds atoms merged ↔
                  ∀ criteria ∈ stages.filterMap Stage.matching?, DictHolds atoms criteria))) ∧
      ((∀ e ∈ matchFields stages, ¬Unreadable e.2) ∨ (matchFields stages).Pairwise Unite →
        ¬Stuck fold (matchFields stages)) := by
  have hflat : Listed (stages.filterMap Stage.matching?).flatten := by
    intro e he
    obtain ⟨criteria, hc, hm⟩ := List.mem_flatten.mp he
    exact hl criteria hc e hm
  refine ⟨later, foldsLater_later, ?_, fun h => h.elim not_stuck_of_readable not_stuck_of_unite⟩
  rw [consolidateMatch_eq]
  refine (mergeAll_outcome hflat.ands).imp ?_ ?_
  · intro hstuck
    rw [hstuck.2]
    exact ⟨hstuck.1, rfl⟩
  · intro hrun
    obtain ⟨hfree, merged, hm⟩ := hrun
    have hmeaning (atoms : Atoms) : DictHolds atoms merged ↔
        (∀ e ∈ (stages.filterMap Stage.matching?).flatten, isLogical e.1 = true →
          EntryHolds atoms e.1 e.2) ∧
          ∀ e ∈ Entries.foldKeys later (matchFields stages), EntryHolds atoms e.1 e.2 :=
      mergeAll_meaning hflat hm atoms
    refine ⟨hfree, merged, ?_, fun atoms => ⟨?_, fun hunite => ?_⟩⟩
    · have hpart : matchPart stages merged = [.matching merged] := by
        rw [matchPart, List.isEmpty_eq_false_iff.mpr hne, if_neg Bool.false_ne_true]
      rw [hm]
      exact congrArg (fun part => Except.ok (part ++ stages.filter fun s => !s.isMatching)) hpart
    · rw [hmeaning, logicalEntriesHold_iff hl, and_assoc]
    · rw [hmeaning, entriesHold_foldKeys hunite, matchFields, ← dictHolds_iff_logical_and_field,
        dictHolds_flatten]

example : consolidateMatch [.matching [("a", .keyed [(.int 1, .int 2)])],
    .matching [("a", .int 3)]] = .error .notText := rfl

theorem consolidateMatch_meaning_three_alternatives :
    let stages : List Stage :=
      [.matching [("$or", .list [.map [("a", .scalar (.int 1))]]),
          ("age", .map [("$gte", .scalar (.int 18))])],
        .limit (.int 5),
        .matching [("$and", .list [.map [("b", .scalar (.int 2))]]), ("$or", .list [.map []])],
        .matching [("$or", .list []), ("age", .map [("$lt", .scalar (.int 65))])]]
    ∃ merged,
      consolidateMatch stages =
        .ok (.matching merged :: stages.filter fun s => !s.isMatching) ∧
      ∀ atoms : Atoms, DictHolds atoms merged ↔
        ∀ criteria ∈ stages.filterMap Stage.matching?, DictHolds atoms criteria := by
  intro stages
  have hne : stages.filterMap Stage.matching? ≠ [] := List.cons_ne_nil _ _
  have hl : ∀ criteria ∈ stages.filterMap Stage.matching?, Listed criteria := by
    change ∀ criteria ∈ [_, _, _], Listed criteria
    simp only [List.forall_mem_cons, List.not_mem_nil, false_imp_iff, implies_true, and_true]
    refine ⟨?_, ?_, ?_⟩ <;> simp [Listed, isLogical, -Prod.forall]
  have hunite : (matchFields stages).Pairwise Unite := by
    have hages : matchFields stages =
        [(.text "age", .map [("$gte", .scalar (.int 18))]),
          (.text "age", .map [("$lt", .scalar (.int 65))])] := rfl
    rw [hages, List.pairwise_pair]
    exact fun _ => ⟨_, _, rfl, rfl, List.pairwise_pair.mpr rfl⟩
  obtain ⟨_, _, hstuck | ⟨_, merged, hm, hmeaning⟩, hfree⟩ := consolidateMatch_meaning hne hl
  · exact absurd hstuck.1 (hfree (.inr hunite))
  · exact ⟨merged, hm, fun atoms => (hmeaning atoms).2 hunite⟩

end Pipeline

end QueryPipeline
