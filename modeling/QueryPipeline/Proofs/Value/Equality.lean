import Mathlib.Algebra.Order.Ring.Rat
import Mathlib.Tactic.FieldSimp
import Mathlib.Tactic.NormNum
import QueryPipeline.Value.Scalar

namespace QueryPipeline

/-- What a number stands for, apart from how it is stored. -/
inductive Magnitude where
  | rational (q : ℚ)
  | infinite (negative : Bool)

/-- What a scalar stands for, apart from how it is written. -/
inductive Meaning where
  | null
  | number (m : Magnitude)
  | text (s : String)
  | moment (placed : Bool) (microseconds : Int)
  | day (d : Date)

namespace Binary64

def toRat (x : Binary64) : ℚ := x.numerator / x.denominator

def magnitude? (x : Binary64) : Option Magnitude :=
  if x.isFinite then some (.rational x.toRat)
  else if x.isNaN then none
  else some (.infinite x.negative)

theorem denominator_ne_zero (x : Binary64) : (x.denominator : ℚ) ≠ 0 := by
  have h : 0 < x.denominator := Nat.pow_pos (by decide)
  exact Nat.cast_ne_zero.mpr (by omega)

theorem toRat_eq_iff (x y : Binary64) :
    x.toRat = y.toRat ↔ x.numerator * y.denominator = y.numerator * x.denominator := by
  rw [toRat, toRat, div_eq_div_iff x.denominator_ne_zero y.denominator_ne_zero]
  exact_mod_cast Iff.rfl

theorem toRat_eq_int_iff (x : Binary64) (n : Int) :
    x.toRat = n ↔ x.numerator = n * x.denominator := by
  rw [toRat, div_eq_iff x.denominator_ne_zero]
  exact_mod_cast Iff.rfl

theorem eq_of_infinite {x y : Binary64} (hx : x.isFinite = false) (hnx : x.isNaN = false)
    (hy : y.isFinite = false) (hny : y.isNaN = false) (hs : x.negative = y.negative) : x = y := by
  obtain ⟨sx, ex, fx⟩ := x
  obtain ⟨sy, ey, fy⟩ := y
  simp only [isFinite, isNaN, ne_eq, decide_not, Bool.not_eq_false', decide_eq_true_eq,
    Bool.and_eq_false_imp] at hx hnx hy hny hs
  have hfx : fx.val = 0 := by simpa using hnx hx
  have hfy : fy.val = 0 := by simpa using hny hy
  have he : ex = ey := Fin.ext (hx.trans hy.symm)
  have hf : fx = fy := Fin.ext (hfx.trans hfy.symm)
  rw [hs, he, hf]

theorem eq_iff_magnitude (x y : Binary64) :
    x.eq y = true ↔ ∃ d, x.magnitude? = some d ∧ y.magnitude? = some d := by
  cases hx : x.isFinite with
  | true =>
    cases hy : y.isFinite with
    | true =>
      simp [eq, magnitude?, hx, hy, ← toRat_eq_iff, eq_comm]
    | false =>
      have hne : x ≠ y := by rintro rfl; rw [hx] at hy; cases hy
      cases hny : y.isNaN <;> simp [eq, magnitude?, hx, hy, hny, hne]
  | false =>
    cases hy : y.isFinite with
    | true =>
      have hne : x ≠ y := by rintro rfl; rw [hx] at hy; cases hy
      cases hnx : x.isNaN <;> simp [eq, magnitude?, hx, hy, hnx, hne]
    | false =>
      cases hnx : x.isNaN with
      | true => simp [eq, magnitude?, hx, hnx]
      | false =>
        cases hny : y.isNaN with
        | true =>
          have hne : x ≠ y := by rintro rfl; rw [hnx] at hny; cases hny
          simp [eq, magnitude?, hx, hy, hnx, hny, hne]
        | false =>
          simp only [eq, magnitude?, hx, hy, hnx, hny, Bool.and_self, Bool.false_eq_true,
            ↓reduceIte, Bool.not_false, Bool.true_and, decide_eq_true_eq, Option.some.injEq,
            exists_eq_left', Magnitude.infinite.injEq]
          constructor
          · rintro rfl
            rfl
          · intro hs
            exact eq_of_infinite hx hnx hy hny hs.symm

theorem eqInt_iff_magnitude (x : Binary64) (n : Int) :
    x.eqInt n = true ↔ x.magnitude? = some (.rational n) := by
  cases hx : x.isFinite with
  | true => simp [eqInt, magnitude?, hx, toRat_eq_int_iff]
  | false => cases hnx : x.isNaN <;> simp [eqInt, magnitude?, hx, hnx]

end Binary64

def Moment.microseconds (t : Moment) : Int :=
  t.localMicroseconds - t.offset.getD 0

theorem Moment.same_iff (s t : Moment) :
    s.same t = true ↔ s.offset.isSome = t.offset.isSome ∧ s.microseconds = t.microseconds := by
  cases hs : s.offset <;> cases ht : t.offset <;> simp [same, microseconds, hs, ht]

namespace Scalar

def Number.magnitude? : Number → Option Magnitude
  | .exact n => some (.rational n)
  | .binary x => x.magnitude?

theorem Number.same_iff_magnitude (x y : Number) :
    x.same false y = true ↔ ∃ m, x.magnitude? = some m ∧ y.magnitude? = some m := by
  cases x with
  | exact m =>
    cases y with
    | exact n => simp [same, magnitude?, eq_comm]
    | binary y => simp [same, magnitude?, Binary64.eqInt_iff_magnitude]
  | binary x =>
    cases y with
    | exact n => simp [same, magnitude?, Binary64.eqInt_iff_magnitude]
    | binary y => simp [same, magnitude?, Binary64.eq_iff_magnitude]

def meaning? : Scalar → Option Meaning
  | .null => some .null
  | .bool b => some (.number (.rational b.toInt))
  | .int n => some (.number (.rational n))
  | .float x => x.magnitude?.map .number
  | .text s => some (.text s)
  | .moment t => some (.moment t.offset.isSome t.microseconds)
  | .day d => some (.day d)

theorem beq_iff_meaning (v w : Scalar) :
    (v == w) = true ↔ ∃ d, v.meaning? = some d ∧ w.meaning? = some d := by
  change sameBy false v w = true ↔ _
  cases v <;> cases w <;>
    simp [sameBy, number?, meaning?, Number.same_iff_magnitude, Number.magnitude?,
      Moment.same_iff]
  case text.text => exact eq_comm
  case moment.moment => exact and_congr eq_comm eq_comm
  case day.day => exact eq_comm

instance : PartialEquivBEq Scalar where
  symm {v w} h := by
    obtain ⟨d, hv, hw⟩ := (beq_iff_meaning v w).mp h
    exact (beq_iff_meaning w v).mpr ⟨d, hw, hv⟩
  trans {u v w} huv hvw := by
    obtain ⟨d, hu, hv⟩ := (beq_iff_meaning u v).mp huv
    obtain ⟨e, hv', hw⟩ := (beq_iff_meaning v w).mp hvw
    rw [hv, Option.some.injEq] at hv'
    exact (beq_iff_meaning u w).mpr ⟨d, hu, hv' ▸ hw⟩

theorem beq_text_iff {v : Scalar} {t : String} : (v == text t) = true ↔ v = text t := by
  rw [beq_iff_meaning]
  cases v <;> simp [meaning?, eq_comm]

theorem beq_text_eq_false_iff {v : Scalar} {t : String} : (v == text t) = false ↔ v ≠ text t := by
  rw [← Bool.not_eq_true, ne_eq, beq_text_iff]

end Scalar

end QueryPipeline
