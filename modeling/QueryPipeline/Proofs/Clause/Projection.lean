import QueryPipeline.Clause.Projection
import QueryPipeline.Proofs.Entries
import QueryPipeline.Proofs.Outcome
import QueryPipeline.Proofs.Value.Equality

namespace QueryPipeline

namespace Scalar

theorem ascending_text (names : List String) :
    ∃ sorted, ascending (names.map text) = .ok sorted := by
  have hall : ((names.map text).all fun s => (names.map text).all fun t => (le? s t).isSome) =
      true := by
    rw [List.all_eq_true]
    intro v hv
    rw [List.all_eq_true]
    intro w hw
    obtain ⟨s, _, rfl⟩ := List.mem_map.mp hv
    obtain ⟨t, _, rfl⟩ := List.mem_map.mp hw
    rfl
  refine ⟨(names.map text).mergeSort fun s t => (le? s t).getD false, ?_⟩
  rw [ascending, hall, Bool.or_true, if_pos rfl]

theorem ascending_perm {members sorted : List Scalar} (h : ascending members = .ok sorted) :
    sorted.Perm members := by
  rw [ascending] at h
  split at h
  · cases h
    exact List.mergeSort_perm _ _
  · cases h

theorem contains_text {names : List String} {field : String} :
    (names.map text).contains (text field) = true ↔ field ∈ names := by
  rw [List.contains_iff_exists_mem_beq]
  constructor
  · intro hmem
    obtain ⟨v, hv, hb⟩ := hmem
    obtain ⟨name, hn, rfl⟩ := List.mem_map.mp hv
    cases beq_text_iff.mp (BEq.symm hb)
    exact hn
  · intro h
    exact ⟨text field, List.mem_map_of_mem h, beq_text_iff.mpr rfl⟩

end Scalar

namespace Projection

def Named (p : Projection) : Prop :=
  ∀ e ∈ p, ∃ field, e.1 = .text field

/-- Is there a field, besides the id, that is included and not hidden? -/
def Keeps (names : List String) (p : Projection) : Prop :=
  ∃ field, field ≠ "_id" ∧ field ∉ names ∧ (.text field, true) ∈ p

theorem named_ofFields (fields : List (String × Bool)) : Named (ofFields fields) := by
  intro e he
  rw [ofFields, Entries.ofList, Entries.update_nil] at he
  obtain ⟨e', he', hk⟩ := Entries.key_of_mem_foldKeys he
  obtain ⟨field, _, rfl⟩ := List.mem_map.mp he'
  exact ⟨field.1, hk.symm⟩

theorem Named.filter {p : Projection} (h : Named p) (q : Scalar × Bool → Bool) :
    Named (p.filter q) :=
  fun e he => h e (List.mem_filter.mp he).1

theorem includes_eq_true_iff {p : Projection} :
    includes p = true ↔ ∃ key : Scalar, key ≠ "_id" ∧ (key, true) ∈ p := by
  rw [includes, List.any_eq_true]
  constructor
  · intro hany
    obtain ⟨⟨key, shown⟩, he, hi⟩ := hany
    obtain ⟨rfl, hid⟩ := Bool.and_eq_true_iff.mp hi
    rw [bne, Bool.not_eq_true', idField, Scalar.beq_text_eq_false_iff] at hid
    exact ⟨key, hid, he⟩
  · intro hex
    obtain ⟨key, hid, he⟩ := hex
    refine ⟨_, he, ?_⟩
    rwa [Bool.true_and, bne, Bool.not_eq_true', idField, Scalar.beq_text_eq_false_iff]

theorem eq_id_of_not_includes {p : Projection} (h : includes p = false) {key : Scalar}
    (hmem : (key, true) ∈ p) : key = "_id" := by
  by_contra hid
  rw [includes_eq_true_iff.mpr ⟨key, hid, hmem⟩] at h
  cases h

theorem includes_iff {p : Projection} (h : Named p) :
    includes p = true ↔ ∃ field, field ≠ "_id" ∧ (.text field, true) ∈ p := by
  rw [includes_eq_true_iff]
  constructor
  · intro hex
    obtain ⟨key, hid, he⟩ := hex
    obtain ⟨field, rfl⟩ : ∃ field, key = .text field := h _ he
    exact ⟨field, fun heq => hid (congrArg Scalar.text heq), he⟩
  · intro hex
    obtain ⟨field, hid, he⟩ := hex
    exact ⟨.text field, fun heq => hid (Scalar.text.inj heq), he⟩

theorem mem_settle_of_shown {p : Projection} {key : Scalar} :
    (key, true) ∈ settle p ↔ (key, true) ∈ p := by
  rw [settle]
  split
  · rw [List.mem_filter, Bool.true_or, and_iff_left rfl]
  · rfl

theorem Named.settle {p : Projection} (h : Named p) : Named (settle p) := by
  rw [Projection.settle]
  split
  · exact h.filter _
  · exact h

def without (hidden : List Scalar) (p : Projection) : Projection :=
  p.filter fun e => !hidden.contains e.1

theorem mem_without {names : List String} {p : Projection} {field : String} {shown : Bool} :
    (.text field, shown) ∈ without (names.map .text) p ↔
      (.text field, shown) ∈ p ∧ field ∉ names := by
  rw [without, List.mem_filter, ← Scalar.contains_text, Bool.not_eq_true', Bool.not_eq_true]

theorem Named.without {p : Projection} (h : Named p) (names : List String) :
    Named (without (names.map .text) p) :=
  h.filter _

theorem includes_without_iff {names : List String} {p : Projection} (h : Named p) :
    includes (without (names.map .text) (settle p)) = true ↔ Keeps names p := by
  rw [includes_iff (h.settle.without names), Keeps]
  simp only [mem_without, mem_settle_of_shown, and_comm]

theorem mem_exclusions {settings : Settings} {excluded : Projection}
    (h : exclusions settings = .ok excluded) {e : Scalar × Bool} :
    e ∈ excluded ↔ ∃ name ∈ settings.hiddenFields, e = (name, false) := by
  obtain ⟨sorted, hsorted, h⟩ := Outcome.bind_eq_ok_iff.mp h
  cases h
  rw [List.mem_map]
  constructor
  · intro hmem
    obtain ⟨name, hname, rfl⟩ := hmem
    exact ⟨name, (Scalar.ascending_perm hsorted).mem_iff.mp hname, rfl⟩
  · intro hmem
    obtain ⟨name, hname, rfl⟩ := hmem
    exact ⟨name, (Scalar.ascending_perm hsorted).mem_iff.mpr hname, rfl⟩

theorem exclusions_ok {settings : Settings} {names : List String}
    (hs : settings.hiddenFields = names.map .text) :
    ∃ excluded, exclusions settings = .ok excluded := by
  obtain ⟨sorted, ho⟩ := Scalar.ascending_text names
  refine ⟨sorted.map fun name => (name, false), ?_⟩
  rw [exclusions, Settings.hiddenNames, hs, ho]
  rfl

theorem exclusions_spec {settings : Settings} {names : List String}
    (hs : settings.hiddenFields = names.map .text) :
    ∃ excluded, exclusions settings = .ok excluded ∧
      ∀ e, e ∈ excluded ↔ ∃ name ∈ names, e = (.text name, false) := by
  obtain ⟨excluded, hx⟩ := exclusions_ok hs
  refine ⟨excluded, hx, fun e => ?_⟩
  rw [mem_exclusions hx, hs]
  simp only [List.mem_map, exists_exists_and_eq_and]

theorem enforce_ok {settings : Settings} {names : List String}
    (hs : settings.hiddenFields = names.map .text) (p : Projection) :
    ∃ enforced, enforce settings p = .ok enforced := by
  obtain ⟨excluded, hx⟩ := exclusions_ok hs
  rw [enforce, hx]
  split
  · exact ⟨_, rfl⟩
  · split
    · dsimp only
      split
      · exact ⟨_, rfl⟩
      · exact ⟨excluded, rfl⟩
    · exact ⟨_, rfl⟩

theorem Keeps.includes {names : List String} {p : Projection} (hp : Named p)
    (h : Keeps names p) : includes p = true := by
  obtain ⟨field, hid, _, he⟩ := h
  exact (includes_iff hp).mpr ⟨field, hid, he⟩

/-- Every hidden field is excluded, and no field but the id is included. -/
def HidesAll (names : List String) (p : Projection) : Prop :=
  (∀ name ∈ names, (.text name, false) ∈ p) ∧ ∀ field, (.text field, true) ∈ p → field = "_id"

theorem hidesAll_update {names : List String} {p excluded : Projection}
    (hi : includes p = false)
    (he : ∀ e, e ∈ excluded ↔ ∃ name ∈ names, e = (.text name, false)) :
    HidesAll names (Entries.update p excluded) := by
  have hfalse : ∀ e ∈ excluded, e.2 = false := by
    intro e hm
    obtain ⟨name, _, rfl⟩ := (he e).mp hm
    rfl
  refine ⟨?_, ?_⟩
  · intro name hn
    have hm : (.text name, false) ∈ excluded := (he _).mpr ⟨name, hn, rfl⟩
    have hg : Entries.get? (Entries.update p excluded) (.text name) = some false :=
      Entries.get?_update_of_forall hfalse (.inr ⟨_, hm, Scalar.beq_text_iff.mpr rfl⟩)
    obtain ⟨⟨key, shown⟩, hu, hk, rfl⟩ := Entries.mem_of_get?_eq_some hg
    cases Scalar.beq_text_iff.mp hk
    exact hu
  · intro field hu
    rcases Entries.mem_update hu with hm | ⟨x, hx, hxe⟩
    · exact Scalar.text.inj (eq_id_of_not_includes hi hm)
    · rw [hfalse x hx] at hxe
      cases hxe

/-- With hidden fields either something that is not hidden is included, or every hidden field is
excluded. -/
theorem enforce_spec {settings : Settings} {names : List String} {p : Projection}
    (hp : Named p) (hs : settings.hiddenFields = names.map .text) (hne : names ≠ []) :
    ∃ enforced, enforce settings p = .ok enforced ∧
      ((Keeps names p ∧ enforced = without (names.map .text) (settle p)) ∨
        (¬Keeps names p ∧ HidesAll names enforced)) := by
  obtain ⟨excluded, hx, hmem⟩ := exclusions_spec hs
  have hhidden : settings.hiddenFields.isEmpty = false := by
    rw [hs, List.isEmpty_eq_false_iff]
    exact fun h => hne (List.map_eq_nil_iff.mp h)
  rw [enforce, hhidden, if_neg Bool.false_ne_true]
  cases hi : includes p with
  | true =>
    rw [if_pos rfl, hs]
    cases hk : includes (without (names.map .text) (settle p)) with
    | true =>
      refine ⟨_, if_pos hk, .inl ⟨(includes_without_iff hp).mp hk, rfl⟩⟩
    | false =>
      have hnot : ¬Keeps names p := by
        rw [← includes_without_iff hp, hk]
        exact Bool.false_ne_true
      refine ⟨excluded, ?_, .inr ⟨hnot, ?_, ?_⟩⟩
      · exact (if_neg (by rw [← without, hk]; exact Bool.false_ne_true)).trans hx
      · exact fun name hn => (hmem _).mpr ⟨name, hn, rfl⟩
      · intro field hf
        obtain ⟨_, _, he⟩ := (hmem _).mp hf
        cases he
  | false =>
    have hnot : ¬Keeps names p := by
      intro h
      rw [h.includes hp] at hi
      cases hi
    have hsettle : settle p = p := by rw [settle, hi, if_neg Bool.false_ne_true]
    refine ⟨Entries.update p excluded, ?_, .inr ⟨hnot, hidesAll_update hi hmem⟩⟩
    rw [if_neg Bool.false_ne_true, hx, hsettle]
    rfl

end Projection

end QueryPipeline
