import Mathlib.Data.List.Perm.Basic
import QueryPipeline.Proofs.Outcome

namespace QueryPipeline

variable {α β γ δ ε : Type} {r : α → β → Prop} {s : γ → δ → Prop}

def RearrangedBy (r : α → β → Prop) (l : List α) (l' : List β) : Prop :=
  ∃ mid, l.Perm mid ∧ List.Forall₂ r mid l'

namespace RearrangedBy

variable {l m : List α} {l' m' : List β}

theorem of_forall₂ (h : List.Forall₂ r l l') : RearrangedBy r l l' :=
  ⟨l, .refl l, h⟩

theorem of_perm (hp : l.Perm m) (h : RearrangedBy r m l') : RearrangedBy r l l' := by
  obtain ⟨mid, hm, h⟩ := h
  exact ⟨mid, hp.trans hm, h⟩

theorem append (h : RearrangedBy r l l') (hm : RearrangedBy r m m') :
    RearrangedBy r (l ++ m) (l' ++ m') := by
  obtain ⟨mid, hp, h⟩ := h
  obtain ⟨mid', hp', hm⟩ := hm
  exact ⟨mid ++ mid', hp.append hp', List.rel_append h hm⟩

theorem perm (h : RearrangedBy Eq l m) : l.Perm m := by
  obtain ⟨mid, hp, h⟩ := h
  rw [List.forall₂_eq_eq_eq] at h
  exact h ▸ hp

theorem length_eq (h : RearrangedBy r l l') : l.length = l'.length := by
  obtain ⟨mid, hp, h⟩ := h
  rw [hp.length_eq, h.length_eq]

theorem imp_mem {p : α → β → Prop} (h : RearrangedBy r l l')
    (hp : ∀ a ∈ l, ∀ b ∈ l', r a b → p a b) : RearrangedBy p l l' := by
  obtain ⟨mid, hperm, h⟩ := h
  refine ⟨mid, hperm, ?_⟩
  replace hp (a : α) (ha : a ∈ mid) : ∀ b ∈ l', r a b → p a b := hp a (hperm.mem_iff.mpr ha)
  clear hperm
  induction h with
  | nil => exact .nil
  | cons hab _ ih =>
    refine .cons (hp _ List.mem_cons_self _ List.mem_cons_self hab) (ih ?_)
    exact fun a ha b hb => hp a (List.mem_cons_of_mem _ ha) b (List.mem_cons_of_mem _ hb)

theorem flatMap {f : α → List γ} {g : β → List δ} (h : RearrangedBy r l l')
    (hfg : ∀ a b, r a b → RearrangedBy s (f a) (g b)) :
    RearrangedBy s (l.flatMap f) (l'.flatMap g) := by
  obtain ⟨mid, hp, h⟩ := h
  refine of_perm (hp.flatMap_right f) ?_
  clear hp
  induction h with
  | nil => exact of_forall₂ .nil
  | cons hab _ ih =>
    rw [List.flatMap_cons, List.flatMap_cons]
    exact (hfg _ _ hab).append ih

theorem filterMap {f : α → Option γ} {g : β → Option δ} (h : RearrangedBy r l l')
    (hfg : ∀ a b, r a b → Option.Rel s (f a) (g b)) :
    RearrangedBy s (l.filterMap f) (l'.filterMap g) := by
  obtain ⟨mid, hp, h⟩ := h
  exact ⟨mid.filterMap f, hp.filterMap f, List.rel_filterMap (fun _ _ hab => hfg _ _ hab) h⟩

theorem of_keys {κ : Type} {es : List (κ × α)} {fs : List (κ × β)}
    (h : (es.map Prod.fst).Perm (fs.map Prod.fst)) :
    RearrangedBy (fun e f => e.1 = f.1) es fs := by
  have hes : List.Forall₂ (fun (e : κ × α) k => e.1 = k) es (es.map Prod.fst) := by
    rw [List.forall₂_map_right_iff, List.forall₂_same]
    exact fun _ _ => rfl
  have hcomp := List.forall₂_comp_perm_eq_perm_comp_forall₂ (r := fun (e : κ × α) k => e.1 = k)
  have hmid : Relation.Comp List.Perm (List.Forall₂ fun (e : κ × α) k => e.1 = k) es
      (fs.map Prod.fst) := by
    rw [← hcomp]
    exact ⟨_, hes, h⟩
  obtain ⟨mid, hp, hm⟩ := hmid
  exact ⟨mid, hp, List.forall₂_map_right_iff.mp hm⟩

end RearrangedBy

namespace Outcome

/-- Both outcomes are faults, or neither is and what they give is related. -/
inductive Alike (r : α → β → Prop) : Except ε α → Except ε β → Prop where
  | ok {a : α} {b : β} (h : r a b) : Alike r (.ok a) (.ok b)
  | error (f g : ε) : Alike r (.error f) (.error g)

theorem Alike.trans {p : β → γ → Prop} {q : α → γ → Prop} {x : Except ε α} {y : Except ε β}
    {z : Except ε γ} (hxy : Alike r x y) (hyz : Alike p y z)
    (hq : ∀ a b c, r a b → p b c → q a c) : Alike q x z := by
  cases hxy with
  | ok hab =>
    cases hyz with
    | ok hbc => exact .ok (hq _ _ _ hab hbc)
  | error f g =>
    cases hyz with
    | error _ h => exact .error f h

theorem Alike.map {f : α → γ} {g : β → δ} {x : Except ε α} {y : Except ε β} (h : Alike r x y)
    (hfg : ∀ a b, r a b → s (f a) (g b)) :
    Alike s (x >>= fun a => pure (f a)) (y >>= fun b => pure (g b)) := by
  cases h with
  | ok h => exact .ok (hfg _ _ h)
  | error f g => exact .error f g

theorem mapM_perm {f : α → Except ε β} {l l' : List α} (h : l.Perm l') :
    Alike List.Perm (l.mapM f) (l'.mapM f) := by
  have hok {l l' : List α} (h : l.Perm l') {bs : List β} (hbs : l.mapM f = .ok bs) :
      ∃ bs', l'.mapM f = .ok bs' ∧ bs.Perm bs' := by
    obtain ⟨bs', hbs', hp⟩ := List.perm_comp_forall₂ h.symm (mapM_eq_ok_iff.mp hbs)
    exact ⟨bs', mapM_eq_ok_iff.mpr hbs', hp.symm⟩
  cases hl : l.mapM f with
  | ok bs =>
    obtain ⟨bs', hbs', hp⟩ := hok h hl
    rw [hbs']
    exact .ok hp
  | error e =>
    cases hl' : l'.mapM f with
    | ok bs' =>
      obtain ⟨bs, hbs, _⟩ := hok h.symm hl'
      rw [hl] at hbs
      cases hbs
    | error e' => exact .error e e'

theorem mapM_forall₂ {f : α → Except ε γ} {g : β → Except ε δ} {l : List α} {l' : List β}
    (h : List.Forall₂ (fun a b => Alike s (f a) (g b)) l l') :
    Alike (List.Forall₂ s) (l.mapM f) (l'.mapM g) := by
  induction h with
  | nil => exact .ok .nil
  | @cons a b rest rest' hab _ ih =>
    rw [List.mapM_cons, List.mapM_cons]
    generalize f a = x at hab
    generalize g b = y at hab
    cases hab with
    | ok hab => exact ih.map fun _ _ => .cons hab
    | error e e' => exact .error e e'

theorem mapM_rearranged {f : α → Except ε γ} {g : β → Except ε δ} {l : List α} {l' : List β}
    (h : RearrangedBy (fun a b => Alike s (f a) (g b)) l l') :
    Alike (RearrangedBy s) (l.mapM f) (l'.mapM g) := by
  obtain ⟨mid, hp, h⟩ := h
  exact (mapM_perm hp).trans (mapM_forall₂ h) fun _ mid _ hp h => ⟨mid, hp, h⟩

end Outcome

end QueryPipeline
