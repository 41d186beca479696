import QueryPipeline.Value.Shape

namespace QueryPipeline

namespace Dict

theorem entries?_ofEntries (entries : Entries Value) :
    entries? (ofEntries entries) = some entries := by
  induction entries with
  | nil => rfl
  | cons e rest ih =>
    have hcons : entries? (ofEntries (e :: rest)) =
        (entries? (ofEntries rest)).map ((e.1, e.2) :: ·) := rfl
    rw [hcons, ih, Option.map_some]

theorem eq_ofEntries {d : Dict} {entries : Entries Value} (h : entries? d = some entries) :
    d = ofEntries entries := by
  induction d generalizing entries with
  | nil =>
    cases h
    rfl
  | cons e rest ih =>
    obtain ⟨key, v⟩ := e
    cases key with
    | text key =>
      rw [entries?] at h
      obtain ⟨later, hlater, rfl⟩ := Option.map_eq_some_iff.mp h
      rw [ih hlater]
      rfl
    | _ => cases h

@[simp] theorem toDict_toValue (d : Dict) : d.toValue.toDict = .ok d := by
  rw [toValue]
  split
  · rename_i entries h
    rw [Value.toDict, eq_ofEntries h]
  · rfl

theorem get?_ofEntries (entries : Entries Value) (name : String) :
    Entries.get? (ofEntries entries) (.text name) = Entries.get? entries name := by
  induction entries with
  | nil => rfl
  | cons entry rest ih =>
    rw [Entries.get?_cons, ← ih, ← Scalar.text_beq_text]
    rfl

@[simp] theorem asDict_toValue (d : Dict) : d.toValue.asDict = .ok d := by
  rw [toValue]
  split
  · rename_i entries h
    rw [Value.asDict, eq_ofEntries h]
  · rfl

theorem toValue_ofEntries (entries : Entries Value) :
    (ofEntries entries).toValue = .map entries := by
  rw [toValue, entries?_ofEntries]

theorem toValue_injective {d e : Dict} (h : d.toValue = e.toValue) : d = e := by
  have hdict := congrArg Value.asDict h
  rw [asDict_toValue, asDict_toValue] at hdict
  exact Except.ok.inj hdict

end Dict

namespace Value

theorem toDict_of_asDict {v : Value} {d : Dict} (h : v.asDict = .ok d) : v.toDict = .ok d := by
  cases v with
  | map entries => exact h
  | keyed entries => exact h
  | _ => cases h

/-- Is the value a map? One whose keys are all text is never `keyed`. -/
def IsMap : Value → Prop
  | .map _ => True
  | .keyed d => Dict.entries? d = none
  | _ => False

/-- A map is written as it was before its entries were taken. -/
theorem IsMap.toDict {v : Value} (h : v.IsMap) : ∃ d, v.toDict = .ok d ∧ d.toValue = v := by
  cases v with
  | map entries =>
    exact ⟨.ofEntries entries, rfl, Dict.toValue_ofEntries entries⟩
  | keyed d =>
    refine ⟨d, rfl, ?_⟩
    rw [Dict.toValue, show Dict.entries? d = none from h]
  | _ => cases h

end Value

end QueryPipeline
