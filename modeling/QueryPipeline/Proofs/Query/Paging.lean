import QueryPipeline.Proofs.Query.ParameterOrder

namespace QueryPipeline

def pageKeys : List String :=
  ["page", "limit", "skip"]

def Scalar.isPageKey : Scalar → Bool
  | .text key => pageKeys.contains key
  | _ => false

def Dict.unpaged (query : Dict) : Dict :=
  query.filter fun entry => !entry.1.isPageKey

def QueryObject.unpaged (q : QueryObject) : QueryObject :=
  { q with control := q.control.filter fun entry => !pageKeys.contains entry.1 }

def Reading.isPaging (reading : Reading) : Bool :=
  reading.control?.any fun entry => pageKeys.contains entry.1

def Parameter.isPaging (p : Parameter) : Bool :=
  p.control?.any fun entry => pageKeys.contains entry.1

open Outcome

theorem controlKeys_of_pageKeys : ∀ key ∈ pageKeys, key ∈ controlKeys := by
  decide

section Entry

variable {key : Scalar} {v : Value} {p : Parameter}

theorem isPaging_of_mem_fields {leaves : List (String × Value)}
    (h : p ∈ leaves.map fun leaf => Parameter.field leaf.1 leaf.2) : p.isPaging = false := by
  obtain ⟨leaf, _, rfl⟩ := List.mem_map.mp h
  rfl

theorem isPaging_of_mem_entryParameters (h : p ∈ entryParameters key v) :
    p.isPaging = key.isPageKey := by
  by_cases htext : ∃ name, key = .text name
  · obtain ⟨name, rfl⟩ := htext
    rw [entryParameters] at h
    split at h
    · rw [List.mem_singleton.mp h]
      rfl
    · rename_i hcontrol
      have hpage : (Scalar.text name).isPageKey = false := by
        apply Bool.eq_false_iff.mpr
        intro hpage
        apply hcontrol
        exact List.contains_iff_mem.mpr
          (controlKeys_of_pageKeys name (List.contains_iff_mem.mp hpage))
      rw [isPaging_of_mem_fields h, hpage]
  · have hkey : key.isPageKey = false := by
      cases key with
      | text name => exact absurd ⟨name, rfl⟩ htext
      | _ => rfl
    rw [entryParameters_of_ne_text fun name he => htext ⟨name, he⟩] at h
    rw [hkey]
    split at h
    · rw [List.mem_singleton.mp h]
      rfl
    · exact isPaging_of_mem_fields h

theorem filter_entryParameters (key : Scalar) (v : Value) :
    (entryParameters key v).filter (fun p => !p.isPaging) =
      if key.isPageKey then [] else entryParameters key v := by
  split
  · rename_i hkey
    apply List.filter_eq_nil_iff.mpr
    intro p hp
    rw [isPaging_of_mem_entryParameters hp, hkey]
    exact Bool.false_ne_true
  · rename_i hkey
    apply List.filter_eq_self.mpr
    intro p hp
    rw [isPaging_of_mem_entryParameters hp, Bool.eq_false_iff.mpr hkey]
    rfl

end Entry

theorem parameters_unpaged (query : Dict) :
    parameters query.unpaged = (parameters query).filter fun p => !p.isPaging := by
  induction query with
  | nil => rfl
  | cons entry rest ih =>
    have hparameters : parameters (entry :: rest) =
        entryParameters entry.1 entry.2 ++ parameters rest := rfl
    rw [hparameters, List.filter_append, filter_entryParameters, ← ih]
    cases hkey : entry.1.isPageKey with
    | true =>
      rw [Dict.unpaged, List.filter_cons_of_neg (by simp [hkey])]
      rfl
    | false =>
      rw [Dict.unpaged, List.filter_cons_of_pos (by simp [hkey])]
      rfl

section Reading

variable {schema : Schema} {reading : Reading}

theorem Parameter.isPaging_read {p : Parameter} (h : p.read schema = .ok reading) :
    p.isPaging = reading.isPaging := by
  rw [isPaging, Reading.isPaging, control?_read h]

theorem Reading.filterMap_unpaged {α : Type} {f : Reading → Option α}
    (h : ∀ key v, f (.control key v) = none) (readings : List Reading) :
    (readings.filter fun reading => !reading.isPaging).filterMap f = readings.filterMap f := by
  rw [List.filterMap_filter]
  apply List.filterMap_congr
  intro reading _
  cases reading with
  | control key v => rw [h, ite_self]
  | _ => rfl

theorem ofReadings_unpaged (readings : List Reading) :
    QueryObject.ofReadings (readings.filter fun reading => !reading.isPaging) =
      (QueryObject.ofReadings readings).unpaged := by
  have hcontrol : (readings.filter fun reading => !reading.isPaging).filterMap Reading.control? =
      (readings.filterMap Reading.control?).filter fun entry => !pageKeys.contains entry.1 := by
    rw [List.filterMap_filter, List.filter_filterMap]
    apply List.filterMap_congr
    intro reading _
    cases reading with
    | control key v => simp [Reading.isPaging, Reading.control?, Option.filter]
    | _ => rfl
  rw [QueryObject.unpaged, QueryObject.ofReadings, hcontrol,
    Reading.filterMap_unpaged (fun _ _ => rfl), Reading.filterMap_unpaged (fun _ _ => rfl)]
  rfl

end Reading

namespace QueryObject

/-- A query that is accepted is accepted without its page, and nothing else changes. -/
theorem parse_unpaged {schema : Schema} {query : Dict} {q : QueryObject}
    (h : parse schema query = .ok q) : parse schema query.unpaged = .ok q.unpaged := by
  obtain ⟨readings, hreadings, h⟩ := bind_eq_ok_iff.mp h
  cases h
  have hread := mapM_eq_ok_iff.mp hreadings
  have hfiltered : List.Forall₂ (fun p reading => Parameter.read schema p = .ok reading)
      ((parameters query).filter fun p => !p.isPaging)
      (readings.filter fun reading => !reading.isPaging) := by
    apply List.rel_filter _ hread
    intro p reading hp
    dsimp only
    rw [Parameter.isPaging_read hp]
  apply bind_eq_ok_iff.mpr
  refine ⟨readings.filter fun reading => !reading.isPaging, ?_, ?_⟩
  · rw [parameters_unpaged]
    exact mapM_eq_ok_iff.mpr hfiltered
  · exact congrArg Except.ok (ofReadings_unpaged readings)

variable {name : String}

theorem controlValue_unpaged (q : QueryObject) (h : name ∉ pageKeys) :
    q.unpaged.controlValue name = q.controlValue name := by
  rw [controlValue, unpaged, Entries.get?_filter, controlValue]
  intro entry he
  rw [beq_iff_eq.mp he]
  simpa using h

theorem controlText_unpaged (q : QueryObject) (h : name ∉ pageKeys) :
    q.unpaged.controlText name = q.controlText name := by
  rw [controlText, controlValue_unpaged q h, controlText]

end QueryObject

end QueryPipeline
