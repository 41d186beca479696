import QueryPipeline.Proofs.Clause.DeclaredType
import QueryPipeline.Proofs.Query.Written

namespace QueryPipeline

inductive Value.Flat : Value → Prop where
  | scalar (s : Scalar) : Flat (.scalar s)
  | scalars {items : List Value} (h : ∀ v ∈ items, ∃ s, v = .scalar s) : Flat (.list items)

namespace Coerce

def Misread (type : Option FieldType) (s : String) : Prop :=
  type = some .date ∧ isTimestamp s = true ∧ Numeral.int? s = none

inductive Converts (type : Option FieldType) (s : String) : Except Fault Value → Prop where
  | scalar (t : Scalar) (h : ¬Misread type s) : Converts type s (.ok (.scalar t))
  | refused (field : String) (shown : Value) (expected : FieldType) (h : ¬Misread type s) :
    Converts type s (.error (.invalidValue field shown expected))
  | misread (h : Misread type s) : Converts type s (.error (.mismatch .notInteger))

theorem value_converts (field : String) (type : Option FieldType) (s : String) :
    Converts type s (value field type (.text s)) := by
  have hcomes := value_comes field type (.text s)
  generalize value field type (.text s) = result at hcomes
  cases hcomes with
  | converted lands h =>
    obtain ⟨t, rfl⟩ | rfl := lands.scalar_or_same
    · exact .scalar t (mt escapes_text_iff.mpr h)
    · exact .scalar (.text s) (mt escapes_text_iff.mpr h)
  | refused shown typed h => exact .refused field shown _ (mt escapes_text_iff.mpr h)
  | escaped h => exact .misread (escapes_text_iff.mp h)

theorem value_flat {field : String} {type : Option FieldType} {s : String} {w : Value}
    (h : value field type (.text s) = .ok w) : ∃ t, w = .scalar t := by
  have hc := value_converts field type s
  rw [h] at hc
  cases hc with
  | scalar t => exact ⟨t, rfl⟩

theorem values_flat {field : String} {type : Option FieldType} {v w : Value} (hv : v.Spelled)
    (h : values field type v = .ok w) : w.Flat := by
  cases hv with
  | text s =>
    obtain ⟨t, rfl⟩ := value_flat h
    exact .scalar t
  | texts items =>
    obtain ⟨values, hm, h⟩ := Outcome.bind_eq_ok_iff.mp h
    cases h
    refine .scalars ?_
    intro v hv
    obtain ⟨x, hx, hxv⟩ := Outcome.mem_of_mapM_eq_ok hm hv
    obtain ⟨s, _, rfl⟩ := List.mem_map.mp hx
    exact value_flat hxv

end Coerce

end QueryPipeline
