import QueryPipeline.Proofs.Query.ParameterOrder
import QueryPipeline.Proofs.Value.Equality
import QueryPipeline.Proofs.Value.Map

namespace QueryPipeline

open Outcome

theorem filterMap_control?_entryParameters (name : String) (v : Value) :
    (entryParameters (.text name) v).filterMap Parameter.control? =
      if controlKeys.contains name then [(name, v)] else [] := by
  rw [entryParameters]
  split
  · rfl
  · exact filterMap_control?_fields _

theorem filterMap_control?_entryParameters_of_ne_text {key : Scalar}
    (hkey : ∀ name, key ≠ .text name) (v : Value) :
    (entryParameters key v).filterMap Parameter.control? = [] := by
  rw [entryParameters_of_ne_text hkey]
  split
  · rfl
  · exact filterMap_control?_fields _

/-- Under a control key stands what the query has under it. -/
theorem get?_control_parameters (query : Dict) {name : String}
    (hname : controlKeys.contains name = true) :
    Entries.get? ((parameters query).filterMap Parameter.control?) name =
      Entries.get? query (.text name) := by
  induction query with
  | nil => rfl
  | cons entry rest ih =>
    obtain ⟨key, v⟩ := entry
    have hparameters : parameters ((key, v) :: rest) = entryParameters key v ++ parameters rest :=
      rfl
    rw [hparameters, List.filterMap_append, Entries.get?_append, ih, Entries.get?_cons]
    by_cases htext : ∃ text, key = .text text
    · obtain ⟨text, rfl⟩ := htext
      rw [filterMap_control?_entryParameters, Scalar.text_beq_text]
      by_cases hsame : text = name
      · rw [hsame, hname, if_pos rfl, Entries.get?_cons, if_pos BEq.rfl, if_pos BEq.rfl,
          Option.some_or]
      · have hne : (text == name) = false := beq_eq_false_iff_ne.mpr hsame
        rw [hne, if_neg Bool.false_ne_true]
        split
        · rw [Entries.get?_cons, hne, if_neg Bool.false_ne_true, Entries.get?_nil, Option.none_or]
        · rw [Entries.get?_nil, Option.none_or]
    · have hother : ∀ text, key ≠ .text text := fun text he => htext ⟨text, he⟩
      rw [filterMap_control?_entryParameters_of_ne_text hother, Entries.get?_nil, Option.none_or,
        Scalar.beq_text_eq_false_iff.mpr (hother name), if_neg Bool.false_ne_true]

theorem Parameter.eq_control {p : Parameter} {entry : String × Value}
    (h : p.control? = some entry) : p = .control entry.1 entry.2 := by
  cases p with
  | control key v =>
    cases h
    rfl
  | field path v => cases h
  | unnamed => cases h

theorem readControl_text {key : String} {v : Value} {reading : Reading}
    (hkey : textControlKeys.contains key = true) (h : readControl key v = .ok reading) :
    v = .null ∨ ∃ text, v = .text text := by
  unfold readControl at h
  split at h
  · cases h
  · rename_i hshape
    rw [hkey, Bool.true_and, Bool.and_eq_true, not_and_or, Bool.not_eq_true', Bool.not_eq_false,
      Bool.not_eq_true', Bool.not_eq_false] at hshape
    rcases hshape with hnull | htext
    · unfold Value.isNull at hnull
      split at hnull
      · exact .inl rfl
      · cases hnull
    · unfold Value.isText at htext
      split at htext
      · exact .inr ⟨_, rfl⟩
      · cases htext

namespace QueryObject

variable {schema : Schema} {q : QueryObject}

theorem controlValue_eq_get? {query : Dict} (h : parse schema query = .ok q) {name : String}
    (hname : controlKeys.contains name = true) :
    q.controlValue name = (Entries.get? query (.text name)).getD .null := by
  obtain ⟨readings, hr, h⟩ := bind_eq_ok_iff.mp h
  cases h
  rw [controlValue, ofReadings, control?_readings (mapM_eq_ok_iff.mp hr),
    get?_control_parameters query hname]

theorem controlValue_text {query : Dict} (h : parse schema query = .ok q) {name : String}
    (hname : textControlKeys.contains name = true) :
    q.controlValue name = .null ∨ ∃ text, q.controlValue name = .text text := by
  obtain ⟨readings, hr, h⟩ := bind_eq_ok_iff.mp h
  cases h
  rw [controlValue]
  cases hg : Entries.get? (ofReadings readings).control name with
  | none => exact .inl rfl
  | some v =>
    obtain ⟨entry, he, hk, rfl⟩ := Entries.mem_of_get?_eq_some hg
    obtain ⟨reading, hm, hc⟩ := List.mem_filterMap.mp he
    obtain ⟨p, _, hp⟩ := mem_of_mapM_eq_ok hr hm
    obtain rfl := Parameter.eq_control ((Parameter.control?_read hp).symm.trans hc)
    rw [Parameter.read] at hp
    cases hread : readControl entry.1 entry.2 with
    | error f =>
      rw [hread] at hp
      cases hp
    | ok reading =>
      rw [beq_iff_eq.mp hk] at hread
      exact readControl_text hname hread

end QueryObject

end QueryPipeline
