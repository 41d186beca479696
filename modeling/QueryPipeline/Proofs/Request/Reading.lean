import QueryPipeline.Proofs.Outcome
import QueryPipeline.Request.Session

namespace QueryPipeline

/-- How a clause can fail before it is compiled: the fields to search are no items, one of them is
no text, or the default sort is by a list or a map. -/
inductive Clause.Unreadable (scope : Scope) (q : QueryObject) : Clause → Fault → Prop where
  | notIterable {x : Scalar} (given : x.truthy = true) (h : (Value.scalar x).isText = false) :
    Unreadable scope q (.search (.scalar x)) (.mismatch .notIterable)
  | notText {fields v : Value} {items : List Value} (listed : fields.items = .ok items)
    (mem : v ∈ items) (given : v.truthy = true) (h : v.isText = false) :
    Unreadable scope q (.search fields) (.mismatch .notText)
  | notHashable (unsorted : q.controlText "sort" = "")
    (h : ∀ x, scope.settings.defaultSort ≠ .scalar x) :
    Unreadable scope q .sort (.mismatch .notHashable)

open Outcome

theorem Value.eq_text_of_isText {v : Value} (h : v.isText = true) : ∃ text, v = .text text := by
  unfold Value.isText at h
  split at h
  · exact ⟨_, rfl⟩
  · cases h

theorem Value.asText_of_isText_eq_false {v : Value} (h : v.isText = false) :
    v.asText = .error .notText := by
  unfold Value.asText
  split
  · cases h
  · rfl

namespace Search

def isMisnamed (v : Value) : Bool :=
  v.truthy && !v.isText

theorem fault?_fieldNames (items : List Value) :
    fault? (fieldNames items) = if items.any isMisnamed then some .notText else none := by
  induction items with
  | nil => rfl
  | cons v rest ih =>
    rw [fieldNames, List.any_cons, isMisnamed]
    cases hv : v.truthy with
    | false => exact ih
    | true =>
      cases htext : v.isText with
      | false =>
        rw [Value.asText_of_isText_eq_false htext]
        rfl
      | true =>
        obtain ⟨text, rfl⟩ := Value.eq_text_of_isText htext
        exact (fault?_map _ (fieldNames rest)).trans ih

theorem items_of_not_truthy {fields : Value} (h : fields.truthy = false)
    {items : List Value} (hitems : fields.items = .ok items) : items = [] := by
  cases fields with
  | scalar x =>
    cases x with
    | text s =>
      have hs : s = "" := by simpa [Value.truthy, Scalar.truthy] using h
      rw [hs] at hitems
      cases hitems
      rfl
    | _ => cases hitems
  | list xs =>
    cases hitems
    simpa [Value.truthy] using h
  | map entries =>
    cases hitems
    simpa [Value.truthy] using h
  | keyed entries =>
    cases hitems
    simpa [Value.truthy] using h

theorem not_any_isMisnamed_texts {α : Type} (text : α → String) (xs : List α) :
    (xs.map fun x => Value.text (text x)).any isMisnamed = false := by
  rw [List.any_eq_false]
  intro v hv
  obtain ⟨x, _, rfl⟩ := List.mem_map.mp hv
  simp [isMisnamed, Value.isText]

theorem fault?_fieldsOf_of_items {fields : Value} {items : List Value}
    (h : fields.items = .ok items) :
    fault? (fieldsOf fields) = if items.any isMisnamed then some .notText else none := by
  unfold fieldsOf
  split
  · rename_i s
    cases h
    rw [fault?_fieldNames, not_any_isMisnamed_texts, not_any_isMisnamed_texts]
  · have hitems : (fields.orElse (.list [])).items = .ok items := by
      rw [Value.orElse]
      split
      · exact h
      · rename_i hf
        rw [items_of_not_truthy (Bool.eq_false_iff.mpr hf) h]
        rfl
    rw [hitems]
    exact fault?_fieldNames items

theorem fault?_fieldsOf_scalar {x : Scalar} (h : (Value.scalar x).isText = false) :
    fault? (fieldsOf (.scalar x)) = if x.truthy then some .notIterable else none := by
  have hread : fieldsOf (.scalar x) =
      ((Value.scalar x).orElse (.list [])).items >>= fieldNames := by
    unfold fieldsOf
    split
    · rename_i hs
      rw [hs] at h
      cases h
    · rfl
  have hitems : (Value.scalar x).items = .error .notIterable := by
    cases x <;> first | rfl | cases h
  rw [hread, Value.orElse, Value.truthy]
  split
  · rw [hitems]
    rfl
  · rfl

theorem fault?_fieldsOf_iff {scope : Scope} {q : QueryObject} {fields : Value} {m : Mismatch} :
    fault? (fieldsOf fields) = some m ↔
      (Clause.search fields).Unreadable scope q (.mismatch m) := by
  constructor
  · intro h
    cases hitems : fields.items with
    | ok items =>
      rw [fault?_fieldsOf_of_items hitems] at h
      split at h
      · rename_i hany
        cases h
        obtain ⟨v, hv, hm⟩ := List.any_eq_true.mp hany
        rw [isMisnamed, Bool.and_eq_true, Bool.not_eq_true'] at hm
        exact .notText hitems hv hm.1 hm.2
      · cases h
    | error m' =>
      cases fields with
      | scalar x =>
        have htext : (Value.scalar x).isText = false := by
          cases x <;> first | rfl | cases hitems
        rw [fault?_fieldsOf_scalar htext] at h
        split at h
        · rename_i given
          cases h
          exact .notIterable given htext
        · cases h
      | _ => cases hitems
  · intro h
    cases h with
    | notIterable given h =>
      rw [fault?_fieldsOf_scalar h, if_pos given]
    | notText listed mem given h =>
      rw [fault?_fieldsOf_of_items listed, if_pos]
      exact List.any_eq_true.mpr ⟨_, mem, by rw [isMisnamed, given, h]; rfl⟩

end Search

namespace Session

variable {s : Session}

theorem unreadable_search_iff {fields : Value} {f : Fault} :
    s.compile (.search fields) = .error f ↔
      (Clause.search fields).Unreadable s.scope s.parameters f := by
  have hfault : fault? (s.compile (.search fields)) =
      (fault? (Search.fieldsOf fields)).map Fault.mismatch := by
    rw [compile, Search.read]
    cases Search.fieldsOf fields <;> rfl
  rw [← fault?_eq_some_iff, hfault, Option.map_eq_some_iff]
  constructor
  · intro h
    obtain ⟨m, hm, rfl⟩ := h
    exact Search.fault?_fieldsOf_iff.mp hm
  · intro h
    have hmismatch : ∃ m, f = .mismatch m := by
      cases h <;> exact ⟨_, rfl⟩
    obtain ⟨m, rfl⟩ := hmismatch
    exact ⟨m, Search.fault?_fieldsOf_iff.mpr h, rfl⟩

theorem unreadable_sort_iff {f : Fault} :
    s.compile .sort = .error f ↔ Clause.sort.Unreadable s.scope s.parameters f := by
  rw [compile, Sort.read]
  constructor
  · intro h
    split at h
    · rename_i unsorted
      cases hsort : s.scope.settings.defaultSort with
      | scalar x =>
        rw [hsort] at h
        cases x <;> cases h
      | _ =>
        rw [hsort] at h
        cases h
        exact .notHashable unsorted (by simp [hsort])
    · cases h
  · intro h
    cases h with
    | notHashable unsorted h =>
      rw [if_pos unsorted]
      cases hsort : s.scope.settings.defaultSort with
      | scalar x => exact absurd hsort (h x)
      | _ => rfl

/-- A clause fails before it is compiled only in the ways that are listed. -/
theorem compile_eq_error_iff {clause : Clause} {f : Fault} :
    s.compile clause = .error f ↔ clause.Unreadable s.scope s.parameters f := by
  cases clause with
  | search fields => exact unreadable_search_iff
  | sort => exact unreadable_sort_iff
  | _ => exact ⟨nofun, nofun⟩

end Session

end QueryPipeline
