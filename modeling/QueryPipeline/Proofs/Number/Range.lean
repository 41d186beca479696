import Mathlib.Algebra.Group.Nat.Defs
import QueryPipeline.Calendar.Moment
import QueryPipeline.Value.Literal

namespace QueryPipeline

namespace Numeral

theorem digit?_lt {c : Char} {d : Nat} (h : digit? c = some d) : d < 10 := by
  rw [digit?] at h
  split at h
  · rename_i hdigit
    cases h
    have hle : c.toNat ≤ 57 := (Char.isDigit_iff_toNat.mp hdigit).2
    have hzero : '0'.toNat = 48 := rfl
    omega
  · cases h

theorem lt_of_mem_digits {cs : List Char} {ds : List Nat} (h : digits? cs = some ds) :
    ∀ d ∈ ds, d < 10 := by
  fun_induction digits? cs generalizing ds with
  | case1 => cases h
  | case2 c =>
    obtain ⟨d, hd, rfl⟩ := Option.map_eq_some_iff.mp h
    exact List.forall_mem_singleton.mpr (digit?_lt hd)
  | case3 c rest d later hlater hd ih =>
    cases h
    exact List.forall_mem_cons.mpr ⟨digit?_lt hd, ih hlater⟩
  | case4 => cases h
  | case5 c rest _ _ d later hlater hd ih =>
    cases h
    exact List.forall_mem_cons.mpr ⟨digit?_lt hd, ih hlater⟩
  | case6 => cases h

theorem foldl_digits_lt {ds : List Nat} (h : ∀ d ∈ ds, d < 10) (n : Nat) :
    ds.foldl (fun n d => 10 * n + d) n < (n + 1) * 10 ^ ds.length := by
  induction ds generalizing n with
  | nil => simp
  | cons d rest ih =>
    obtain ⟨hd, hrest⟩ := List.forall_mem_cons.mp h
    calc rest.foldl (fun n d => 10 * n + d) (10 * n + d)
        < (10 * n + d + 1) * 10 ^ rest.length := ih hrest _
      _ ≤ ((n + 1) * 10) * 10 ^ rest.length := Nat.mul_le_mul_right _ (by omega)
      _ = (n + 1) * 10 ^ (rest.length + 1) := by rw [Nat.pow_succ', Nat.mul_assoc]

theorem ofDigits_lt {ds : List Nat} (h : ∀ d ∈ ds, d < 10) : ofDigits ds < 10 ^ ds.length := by
  have hlt := foldl_digits_lt h 0
  rwa [Nat.zero_add, Nat.one_mul] at hlt

theorem natAbs_lt_of_int? {s : String} {n : Int} (h : int? s = some n) :
    n.natAbs < 10 ^ maxDigits := by
  rw [int?] at h
  split at h
  rename_i negative body _
  split at h
  · rename_i ds hds
    split at h
    · rename_i hlength
      have hlt : ofDigits ds < 10 ^ maxDigits :=
        Nat.lt_of_lt_of_le (ofDigits_lt (lt_of_mem_digits hds))
          (Nat.pow_le_pow_right (by decide) hlength)
      have habs : n.natAbs = ofDigits ds := by
        cases h
        split
        · rw [Int.natAbs_neg, Int.natAbs_natCast]
        · rw [Int.natAbs_natCast]
      rwa [habs]
    · cases h
  · cases h

end Numeral

theorem Scalar.isQuotable_int_iff (n : Int) :
    (Scalar.int n).isQuotable = true ↔ n.natAbs < 10 ^ Numeral.maxDigits := by
  rw [isQuotable, unwritable?, ← Nat.length_toDigits_le_iff (by decide) (by decide)]
  split
  · rename_i hlong
    simpa using hlong
  · rename_i hshort
    simpa using hshort

theorem Scalar.eq_int_of_not_isQuotable {s : Scalar} (h : s.isQuotable = false) :
    ∃ n, s = .int n ∧ 10 ^ Numeral.maxDigits ≤ n.natAbs := by
  cases s with
  | int n =>
    refine ⟨n, rfl, Nat.le_of_not_lt fun hlt => ?_⟩
    rw [(isQuotable_int_iff n).mpr hlt] at h
    cases h
  | _ => cases h

namespace Binary64

variable {num den : Nat}

theorem ne_zero_of_two_pow_mul_le {k : Nat} (hden : den ≠ 0) (h : 2 ^ k * den ≤ num) : num ≠ 0 := by
  have hpos := Nat.mul_pos (Nat.two_pow_pos k) (Nat.pos_of_ne_zero hden)
  omega

theorem le_binade {k : Nat} (hden : den ≠ 0) (h : 2 ^ (k + 1) * den ≤ num) :
    (k : Int) ≤ binade num den := by
  have hlog : k + 1 + den.log2 ≤ num.log2 := by
    rw [Nat.le_log2 (ne_zero_of_two_pow_mul_le hden h), Nat.pow_add]
    exact Nat.le_trans (Nat.mul_le_mul_left _ (Nat.log2_self_le hden)) h
  rw [binade]
  split
  · omega
  · omega

/-- A ratio far enough beyond the greatest binary number rounds to infinity. -/
theorem nearest_of_overflow {k : Nat} (hk : 1025 ≤ k) (negative : Bool) (hden : den ≠ 0)
    (h : 2 ^ (k + 1) * den ≤ num) : nearest negative num den = infinity negative := by
  have hbinade := le_binade hden h
  rw [nearest, if_neg (ne_zero_of_two_pow_mul_le hden h), ofOrdinal, dif_neg]
  omega

end Binary64

theorem Moment.ofMilliseconds?_of_overflow {n : Int} (h : 10 ^ Numeral.maxDigits ≤ n.natAbs) :
    ofMilliseconds? n = none := by
  obtain ⟨k, hk, hdigits⟩ : ∃ k, 1025 ≤ k ∧ Numeral.maxDigits = k + 1 + 3 :=
    ⟨4296, by decide, rfl⟩
  have hlarge : 2 ^ (k + 1) * 1000 ≤ n.natAbs :=
    calc 2 ^ (k + 1) * 1000 ≤ 10 ^ (k + 1) * 10 ^ 3 :=
          Nat.mul_le_mul_right _ (Nat.pow_le_pow_left (by decide) _)
      _ = 10 ^ (k + 1 + 3) := (Nat.pow_add 10 (k + 1) 3).symm
      _ ≤ n.natAbs := hdigits ▸ h
  rw [ofMilliseconds?, Binary64.ofRatio, Binary64.nearest_of_overflow hk _ (by decide) hlarge,
    ofSeconds?, if_neg]
  exact Bool.false_ne_true

end QueryPipeline
