import Mathlib.Data.List.Forall2
import QueryPipeline.Fault

namespace QueryPipeline.Outcome

variable {α β ε : Type}

def fault? : Except ε α → Option ε
  | .ok _ => none
  | .error f => some f

@[simp] theorem fault?_ok (a : α) : fault? (.ok a : Except ε α) = none := rfl

@[simp] theorem fault?_error (f : ε) : fault? (.error f : Except ε α) = some f := rfl

theorem fault?_eq_none_iff {x : Except ε α} : fault? x = none ↔ ∃ a, x = .ok a := by
  cases x <;> simp

theorem fault?_eq_some_iff {x : Except ε α} {f : ε} : fault? x = some f ↔ x = .error f := by
  cases x <;> simp

theorem bind_eq_ok_iff {x : Except ε α} {g : α → Except ε β} {b : β} :
    x >>= g = .ok b ↔ ∃ a, x = .ok a ∧ g a = .ok b := by
  cases x <;> simp [bind, Except.bind]

theorem map_eq_ok_iff {x : Except ε α} {g : α → β} {b : β} :
    g <$> x = .ok b ↔ ∃ a, x = .ok a ∧ g a = b := by
  cases x <;> simp

theorem fault?_bind_ok (a : α) (g : α → Except ε β) : fault? (.ok a >>= g) = fault? (g a) := rfl

theorem fault?_map (g : α → β) (x : Except ε α) : fault? (g <$> x) = fault? x := by
  cases x <;> rfl

theorem fault?_bind_pure (g : α → β) (x : Except ε α) :
    fault? (x >>= fun a => pure (g a)) = fault? x := by
  cases x <;> rfl

theorem fault?_mapM (g : α → Except ε β) (xs : List α) :
    fault? (xs.mapM g) = xs.findSome? fun x => fault? (g x) := by
  induction xs with
  | nil => rfl
  | cons x rest ih =>
    rw [List.mapM_cons, List.findSome?_cons]
    cases hx : g x with
    | error f => rfl
    | ok y =>
      rw [fault?_ok, fault?_bind_ok, ← ih]
      exact fault?_map (y :: ·) (rest.mapM g)

/-- The first member that does not pass is a bad one. -/
def FirstBad (passes bad : α → Prop) (xs : List α) : Prop :=
  ∃ before x after, xs = before ++ x :: after ∧ (∀ y ∈ before, passes y) ∧ bad x

theorem findSome?_iff_firstBad {g : α → Option ε} {p : ε → Prop} {passes bad : α → Prop}
    (xs : List α) (hpasses : ∀ x ∈ xs, g x = none ↔ passes x)
    (hbad : ∀ x ∈ xs, (∃ f, g x = some f ∧ p f) ↔ bad x) :
    (∃ f, xs.findSome? g = some f ∧ p f) ↔ FirstBad passes bad xs := by
  constructor
  · intro h
    obtain ⟨f, hf, hp⟩ := h
    obtain ⟨before, x, after, rfl, hx, hbefore⟩ := List.findSome?_eq_some_iff.mp hf
    refine ⟨before, x, after, rfl, ?_, (hbad x (by simp)).mp ⟨f, hx, hp⟩⟩
    exact fun y hy => (hpasses y (by simp [hy])).mp (hbefore y hy)
  · intro h
    obtain ⟨before, x, after, rfl, hbefore, hx⟩ := h
    obtain ⟨f, hx, hp⟩ := (hbad x (by simp)).mpr hx
    refine ⟨f, List.findSome?_eq_some_iff.mpr ⟨before, x, after, rfl, hx, ?_⟩, hp⟩
    exact fun y hy => (hpasses y (by simp [hy])).mpr (hbefore y hy)

theorem mapM_eq_error_iff {g : α → Except ε β} {xs : List α} {f : ε} :
    xs.mapM g = .error f ↔
      FirstBad (fun x => ∃ y, g x = .ok y) (fun x => g x = .error f) xs := by
  have hfirst : (∃ f', (xs.findSome? fun x => fault? (g x)) = some f' ∧ f' = f) ↔
      FirstBad (fun x => ∃ y, g x = .ok y) (fun x => g x = .error f) xs :=
    findSome?_iff_firstBad xs (fun _ _ => fault?_eq_none_iff)
      (fun _ _ => by simp [fault?_eq_some_iff])
  rw [← fault?_eq_some_iff, fault?_mapM]
  simpa using hfirst

theorem exists_or_iff {x y : Option ε} {p : ε → Prop} :
    (∃ f, x.or y = some f ∧ p f) ↔
      (∃ f, x = some f ∧ p f) ∨ x = none ∧ ∃ f, y = some f ∧ p f := by
  cases x <;> simp

theorem mapM_eq_ok_iff {g : α → Except ε β} {xs : List α} {ys : List β} :
    xs.mapM g = .ok ys ↔ List.Forall₂ (fun x y => g x = .ok y) xs ys := by
  induction xs generalizing ys with
  | nil => simp [pure, Except.pure, eq_comm]
  | cons x rest ih =>
    rw [List.mapM_cons, bind_eq_ok_iff, List.forall₂_cons_left_iff]
    constructor
    · intro h
      obtain ⟨y, hy, h⟩ := h
      obtain ⟨later, hl, h⟩ := bind_eq_ok_iff.mp h
      cases h
      exact ⟨y, later, hy, ih.mp hl, rfl⟩
    · intro h
      obtain ⟨y, later, hy, hl, rfl⟩ := h
      exact ⟨y, hy, bind_eq_ok_iff.mpr ⟨later, ih.mpr hl, rfl⟩⟩

theorem exists_of_mem_right {r : α → β → Prop} {xs : List α} {ys : List β}
    (h : List.Forall₂ r xs ys) {y : β} (hy : y ∈ ys) : ∃ x ∈ xs, r x y := by
  induction h with
  | nil => cases hy
  | @cons x _ _ _ hxy _ ih =>
    rcases List.mem_cons.mp hy with rfl | hy
    · exact ⟨x, List.mem_cons_self, hxy⟩
    · obtain ⟨x, hx, hxy⟩ := ih hy
      exact ⟨x, List.mem_cons_of_mem _ hx, hxy⟩

theorem mem_of_mapM_eq_ok {g : α → Except ε β} {xs : List α} {ys : List β}
    (h : xs.mapM g = .ok ys) {y : β} (hy : y ∈ ys) : ∃ x ∈ xs, g x = .ok y :=
  exists_of_mem_right (mapM_eq_ok_iff.mp h) hy

theorem lift_eq_ok_iff {x : Except Mismatch α} {a : α} :
    Mismatch.lift x = .ok a ↔ x = .ok a := by
  cases x <;> simp [Mismatch.lift, Except.mapError]

theorem fault?_lift (x : Except Mismatch α) :
    fault? (Mismatch.lift x) = (fault? x).map Fault.mismatch := by
  cases x <;> rfl

end QueryPipeline.Outcome
