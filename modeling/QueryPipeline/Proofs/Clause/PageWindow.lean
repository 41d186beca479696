import Mathlib.Logic.ExistsUnique
import QueryPipeline.Proofs.Request.Application

namespace QueryPipeline

namespace Page

/-- What the number of a parameter counts as: `fallback` stands for none and for zero. -/
inductive Counts (fallback : Int) : Option Int → Int → Prop where
  | missing : Counts fallback none fallback
  | zero : Counts fallback (some 0) fallback
  | nonzero {n : Int} (h : n ≠ 0) : Counts fallback (some n) n

def Unlimited (limit : Option Int) : Prop :=
  ∃ n, limit = some n ∧ n ≤ -1

def Unskipped (skip : Option Int) : Prop :=
  ∀ n, skip = some n → n < 0

/-- The window that the numbers of a query stand for: `size` documents from the document `start` on,
counted from zero. -/
structure Frames (pageSize : Int) (limit page skip : Option Int) (start size : Int) : Prop where
  sized : Counts pageSize limit size
  skipped : ∀ n, skip = some n → 0 ≤ n → start = n
  turned : Unskipped skip → ∃ number, Counts 1 page number ∧ start = size * (max number 1 - 1)
  nonneg : 0 ≤ start
  pos : 1 ≤ size

/-- Do the stages let the document `i` through, counted from zero? -/
def Shows (stages : List Stage) (i : Nat) : Prop :=
  ∃ start size : Int, stages = [.skip (.int start), .limit (.int size)] ∧
    start ≤ i ∧ i < start + size

variable {pageSize start size number : Int} {limit page skip : Option Int}

theorem counts_given (fallback : Int) (n : Option Int) : Counts fallback n (given fallback n) := by
  cases n with
  | none => exact .missing
  | some n =>
    rw [given]
    split
    · subst n
      exact .zero
    · exact .nonzero ‹_›

theorem Counts.eq_given {fallback m : Int} {n : Option Int} (h : Counts fallback n m) :
    m = given fallback n := by
  cases h with
  | missing => rfl
  | zero => rfl
  | nonzero h => rw [given, if_neg h]

theorem Counts.pos (h : Counts pageSize limit size) (hsize : 1 ≤ pageSize)
    (hlimit : ¬Unlimited limit) : 1 ≤ size := by
  cases h with
  | missing => exact hsize
  | zero => exact hsize
  | nonzero h =>
    have hpositive : ¬size ≤ -1 := fun hle => hlimit ⟨size, rfl, hle⟩
    omega

theorem any_le_iff : limit.any (· ≤ -1) = true ↔ Unlimited limit := by
  rw [Option.any_eq_true, Unlimited]
  simp only [decide_eq_true_eq]

theorem frames_turned (hsize : 1 ≤ pageSize) (hlimit : ¬Unlimited limit)
    (hskip : Unskipped skip) :
    Frames pageSize limit page skip (given pageSize limit * (max (given 1 page) 1 - 1))
      (given pageSize limit) := by
  have hpos := (counts_given pageSize limit).pos hsize hlimit
  refine ⟨counts_given _ _, ?_, fun _ => ⟨_, counts_given _ _, rfl⟩, ?_, hpos⟩
  · intro n hn hnonneg
    have hneg := hskip n hn
    omega
  · exact Int.mul_nonneg (by omega) (by omega)

theorem ofNumbers_of_unlimited (hlimit : Unlimited limit) :
    ofNumbers pageSize limit page skip = .all := by
  rw [ofNumbers, if_pos (any_le_iff.mpr hlimit)]

theorem ofNumbers_of_limited (page skip : Option Int) (hsize : 1 ≤ pageSize)
    (hlimit : ¬Unlimited limit) :
    ∃ start size, ofNumbers pageSize limit page skip = .window start size ∧
      Frames pageSize limit page skip start size := by
  rw [ofNumbers, if_neg fun h => hlimit (any_le_iff.mp h)]
  cases skip with
  | none => exact ⟨_, _, rfl, frames_turned hsize hlimit nofun⟩
  | some n =>
    dsimp only
    split
    · rename_i hn
      refine ⟨_, _, rfl, counts_given _ _, ?_, ?_, hn, (counts_given _ _).pos hsize hlimit⟩
      · rintro _ ⟨⟩ _
        rfl
      · intro hskip
        exact absurd (hskip n rfl) (by omega)
    · rename_i hn
      refine ⟨_, _, rfl, frames_turned hsize hlimit ?_⟩
      rintro _ ⟨⟩
      omega

theorem Shows.iff_window {i : Nat} :
    Shows (window start size).stages i ↔ start ≤ i ∧ i < start + size := by
  constructor
  · rintro ⟨start', size', h, hi⟩
    cases h
    exact hi
  · intro hi
    exact ⟨start, size, rfl, hi⟩

/-- The page that a document is on is the quotient of its number by the size of a page. -/
theorem mem_window_iff (hsize : 1 ≤ size) (i : Int) :
    size * (number - 1) ≤ i ∧ i < size * (number - 1) + size ↔ number = i / size + 1 := by
  have hpos : 0 < size := hsize
  have hlow : size * (number - 1) ≤ i ↔ number - 1 ≤ i / size := by
    rw [Int.le_ediv_iff_mul_le hpos, Int.mul_comm]
  have hhigh : i < size * (number - 1) + size ↔ i / size < number := by
    rw [Int.ediv_lt_iff_lt_mul hpos, Int.mul_sub, Int.mul_one, Int.sub_add_cancel, Int.mul_comm]
  rw [hlow, hhigh]
  omega

end Page

namespace Session

open Page

def number? (s : Session) (name : String) : Option Int :=
  toInt? (s.parameters.controlValue name)

def turnTo (s : Session) (page : Value) : Session :=
  { s with parameters :=
      { s.parameters with control := Entries.put s.parameters.control "page" page } }

theorem controlValue_turnTo (s : Session) (page : Value) :
    (s.turnTo page).parameters.controlValue "page" = page := by
  rw [turnTo, QueryObject.controlValue, Entries.get?_put_self, Option.getD_some]

theorem controlValue_turnTo_of_ne (s : Session) (page : Value) {name : String} (h : "page" ≠ name) :
    (s.turnTo page).parameters.controlValue name = s.parameters.controlValue name := by
  rw [turnTo, QueryObject.controlValue, Entries.get?_put_of_ne _ _ (beq_eq_false_iff_ne.mpr h),
    QueryObject.controlValue]

theorem added_paginate (s : Session) : s.added .paginate =
    (ofNumbers s.scope.settings.pageSize (s.number? "limit") (s.number? "page")
      (s.number? "skip")).stages := rfl

theorem added_paginate_turnTo (s : Session) (page : Value) : (s.turnTo page).added .paginate =
    (ofNumbers s.scope.settings.pageSize (s.number? "limit") (toInt? page)
      (s.number? "skip")).stages := by
  rw [added_paginate, number?, number?, number?, controlValue_turnTo,
    controlValue_turnTo_of_ne s page (by decide), controlValue_turnTo_of_ne s page (by decide)]
  rfl

theorem shows_turnTo_iff {s : Session} {size number : Int} (hlimit : ¬Unlimited (s.number? "limit"))
    (hskip : Unskipped (s.number? "skip")) (hsize : 1 ≤ s.scope.settings.pageSize)
    (hsized : Counts s.scope.settings.pageSize (s.number? "limit") size) {page : Value}
    (hnumber : Counts 1 (toInt? page) number) (i : Nat) :
    Shows ((s.turnTo page).added .paginate) i ↔ max number 1 = i / size + 1 := by
  obtain ⟨start, size', hwindow, hframes⟩ :=
    ofNumbers_of_limited (toInt? page) (s.number? "skip") hsize hlimit
  obtain ⟨number', hnumber', hstart⟩ := hframes.turned hskip
  have heq : size' = size := hframes.sized.eq_given.trans hsized.eq_given.symm
  subst heq
  rw [hnumber'.eq_given, ← hnumber.eq_given] at hstart
  rw [added_paginate_turnTo, hwindow, Shows.iff_window, hstart]
  exact mem_window_iff hframes.pos i

/-- The page of a query is everything just when its limit is negative, and else a window; and the
windows of the pages 1, 2, 3, ... have each document in exactly one of them, unless the query skips
documents itself. -/
theorem paginate_tiles {s : Session} (happlied : s.applied.contains .paginate = false)
    (hcompiled : s.compiled = none) (hsize : 1 ≤ s.scope.settings.pageSize) :
    ∃ after, s.apply .paginate = (.ok .nothing, after) ∧
      after.stages = s.stages ++ s.added .paginate ∧
      (s.added .paginate = [] ↔ Unlimited (s.number? "limit")) ∧
      (¬Unlimited (s.number? "limit") →
        ∃ start size, s.added .paginate = [.skip (.int start), .limit (.int size)] ∧
          Frames s.scope.settings.pageSize (s.number? "limit") (s.number? "page")
            (s.number? "skip") start size) ∧
      (¬Unlimited (s.number? "limit") → Unskipped (s.number? "skip") →
        ∀ i : Nat, ∃! turn : Int, 1 ≤ turn ∧ ∀ page number, Counts 1 (toInt? page) number →
          (Shows ((s.turnTo page).added .paginate) i ↔ max number 1 = turn)) := by
  have hfresh : s.applied.contains Clause.paginate.operation = false := happlied
  obtain ⟨log, happly⟩ := apply_of_open hfresh hcompiled
  refine ⟨_, happly, rfl, ?_, ?_, ?_⟩
  · constructor
    · intro hnone
      by_contra hlimit
      obtain ⟨start, size, hwindow, _⟩ :=
        ofNumbers_of_limited (s.number? "page") (s.number? "skip") hsize hlimit
      rw [added_paginate, hwindow] at hnone
      cases hnone
    · intro hlimit
      rw [added_paginate, ofNumbers_of_unlimited hlimit]
      rfl
  · intro hlimit
    obtain ⟨start, size, hwindow, hframes⟩ :=
      ofNumbers_of_limited (s.number? "page") (s.number? "skip") hsize hlimit
    exact ⟨start, size, by rw [added_paginate, hwindow]; rfl, hframes⟩
  · intro hlimit hskip i
    have hsized := counts_given s.scope.settings.pageSize (s.number? "limit")
    have hpos := hsized.pos hsize hlimit
    have hshows (page : Value) (number : Int) (hnumber : Counts 1 (toInt? page) number) :=
      shows_turnTo_iff hlimit hskip hsize hsized hnumber i
    refine ⟨i / given s.scope.settings.pageSize (s.number? "limit") + 1, ⟨?_, hshows⟩, ?_⟩
    · have hquotient : 0 ≤ (i : Int) / given s.scope.settings.pageSize (s.number? "limit") :=
        Int.ediv_nonneg (by omega) (by omega)
      omega
    · rintro turn ⟨hturn, hiff⟩
      -- The page `turn` itself tells the two numbers apart.
      have hnumber : Counts 1 (toInt? (.int turn)) turn := .nonzero (by omega)
      have hmax : max turn 1 = turn := by omega
      have hshown := (hiff _ _ hnumber).mpr hmax
      rwa [hshows _ _ hnumber, hmax] at hshown

theorem paginate_tiles_third_page :
    let schema : Schema :=
      { origin := .mapping, modelName := none, fields := [], translatable := [],
        collection := none }
    let s : Session :=
      { scope := { schema, settings := {}, asked := none }
        parameters :=
          { control := [("page", .text "3.9"), ("limit", .text " 10 "), ("skip", .int (-1))]
            filters := [], joins := [] } }
    s.added .paginate = [.skip (.int 20), .limit (.int 10)] ∧
      (∃ after, s.apply .paginate = (.ok .nothing, after) ∧
        after.stages = [.skip (.int 20), .limit (.int 10)]) ∧
      ∀ i : Nat, ∃! turn : Int, 1 ≤ turn ∧ ∀ page number, Counts 1 (toInt? page) number →
        (Shows ((s.turnTo page).added .paginate) i ↔ max number 1 = turn) := by
  intro schema s
  have hpage : s.number? "page" = some 3 := by decide +kernel
  have hten : s.number? "limit" = some 10 := by decide +kernel
  have hminus : s.number? "skip" = some (-1) := rfl
  have hadded : s.added .paginate = [.skip (.int 20), .limit (.int 10)] := by
    rw [added_paginate, hpage, hten, hminus]
    rfl
  have hlimit : ¬Unlimited (s.number? "limit") := by
    rw [hten]
    rintro ⟨_, ⟨⟩, hle⟩
    exact absurd hle (by decide)
  have hskip : Unskipped (s.number? "skip") := by
    rintro n ⟨⟩
    decide
  obtain ⟨after, happly, hstages, _, _, htiles⟩ := paginate_tiles (s := s) rfl rfl (by decide)
  rw [hadded] at hstages
  exact ⟨hadded, ⟨after, happly, hstages⟩, htiles hlimit hskip⟩

end Session

end QueryPipeline
