import QueryPipeline.Proofs.Clause.HiddenFields

namespace QueryPipeline

namespace Projection

/-- A projection that the engine accepts, that respects the hidden names and gives what was asked
for besides: it names a field, includes or excludes each of them and does not mix the two besides
the id; it includes no hidden name, and excludes all of them when it includes nothing else; and it
includes what was to be included, or excludes what was to be excluded when that was all. -/
structure Admissible (hidden : List Scalar) (asked : Projection) (d : Dict) : Prop where
  nonempty : d ≠ []
  binary : ∀ e ∈ d, e.2 = .int 1 ∨ e.2 = .int 0
  oneMode : ∀ key other : Scalar, (key, .int 1) ∈ d → (other, .int 0) ∈ d →
    key = "_id" ∨ other = "_id"
  includesNone : ∀ name ∈ hidden, ∀ key, key == name ∨ key = name → (key, .int 1) ∉ d
  hidesAll : (∀ key : Scalar, (key, .int 1) ∈ d → key = "_id") →
    ∀ name ∈ hidden, ∃ key, (key == name ∨ key = name) ∧ (key, .int 0) ∈ d
  includesAsked : ∀ key : Scalar, key ≠ "_id" → hidden.contains key = false →
    (key, true) ∈ asked → (key, .int 1) ∈ d
  excludesAsked : includes asked = false →
    ∀ key : Scalar, (key, false) ∈ asked → (key, .int 0) ∈ d

theorem binary_toDict {p : Projection} : ∀ e ∈ toDict p, e.2 = .int 1 ∨ e.2 = .int 0 := by
  intro e he
  obtain ⟨⟨key, shown⟩, _, rfl⟩ := List.mem_map.mp he
  cases shown with
  | true => exact .inl rfl
  | false => exact .inr rfl

theorem admissible_toDict {hidden : List Scalar} {asked p : Projection} (hne : p ≠ [])
    (hmode : ∀ key other : Scalar, (key, true) ∈ p → (other, false) ∈ p →
      key = "_id" ∨ other = "_id")
    (hnone : ∀ name ∈ hidden, ∀ key, key == name ∨ key = name → (key, true) ∉ p)
    (hhides : (∀ key : Scalar, (key, true) ∈ p → key = "_id") →
      ∀ name ∈ hidden, ∃ key, (key == name ∨ key = name) ∧ (key, false) ∈ p)
    (hincludes : ∀ key : Scalar, key ≠ "_id" → hidden.contains key = false →
      (key, true) ∈ asked → (key, true) ∈ p)
    (hexcludes : includes asked = false → ∀ key : Scalar, (key, false) ∈ asked → (key, false) ∈ p) :
    Admissible hidden asked (toDict p) := by
  constructor
  · exact fun h => hne (List.map_eq_nil_iff.mp h)
  · exact binary_toDict
  · simpa only [mem_toDict_one, mem_toDict_zero] using hmode
  · simpa only [mem_toDict_one] using hnone
  · simpa only [mem_toDict_one, mem_toDict_zero] using hhides
  · simpa only [mem_toDict_one] using hincludes
  · simpa only [mem_toDict_zero] using hexcludes

theorem Named.beq_of_shown {p : Projection} (hp : Named p) {key name : Scalar} {shown : Bool}
    (hmem : (key, shown) ∈ p) (h : key == name ∨ key = name) : (key == name) = true := by
  rcases h with h | rfl
  · exact h
  · obtain ⟨field, rfl⟩ : ∃ field, key = .text field := hp _ hmem
    exact Scalar.beq_text_iff.mpr rfl

theorem settle_oneMode {p : Projection} {key other : Scalar} (hkey : (key, true) ∈ settle p)
    (hother : (other, false) ∈ settle p) : key = "_id" ∨ other = "_id" := by
  cases hi : includes p with
  | false =>
    rw [settle, hi, if_neg Bool.false_ne_true] at hkey
    exact .inl (eq_id_of_not_includes hi hkey)
  | true =>
    rw [settle, if_pos hi] at hother
    have hid := (List.mem_filter.mp hother).2
    exact .inr (Scalar.beq_text_iff.mp hid)

theorem settle_of_not_includes {p : Projection} (hi : includes p = false) : settle p = p := by
  rw [settle, hi, if_neg Bool.false_ne_true]

/-- What is left of a projection is of three kinds: what was asked for, without the hidden fields;
the hidden fields excluded, when nothing is left to include; or these and what was asked for, when
that includes nothing. -/
theorem enforce_cases {settings : Settings} {p enforced : Projection}
    (h : enforce settings p = .ok enforced) :
    settings.hiddenFields = [] ∧ enforced = settle p ∨
      settings.hiddenFields ≠ [] ∧
        (includes enforced = true ∧ enforced = without settings.hiddenFields (settle p) ∨
          includes p = true ∧ includes (without settings.hiddenFields (settle p)) = false ∧
            exclusions settings = .ok enforced ∨
          includes p = false ∧ ∃ excluded, exclusions settings = .ok excluded ∧
            enforced = Entries.update p excluded) := by
  rw [enforce] at h
  split at h
  · cases h
    exact .inl ⟨List.isEmpty_iff.mp ‹_›, rfl⟩
  · refine .inr ⟨fun hnil => ‹¬_› (List.isEmpty_iff.mpr hnil), ?_⟩
    split at h
    · dsimp only at h
      split at h
      · cases h
        exact .inl ⟨‹_›, rfl⟩
      · exact .inr (.inl ⟨‹_›, Bool.eq_false_iff.mpr ‹_›, h⟩)
    · rename_i hi
      obtain ⟨excluded, hx, h⟩ := Outcome.bind_eq_ok_iff.mp h
      cases h
      have hi' : includes p = false := Bool.eq_false_iff.mpr hi
      exact .inr (.inr ⟨hi', excluded, hx, by rw [settle_of_not_includes hi']⟩)

variable {settings : Settings} {p : Projection}

theorem eq_false_of_mem_exclusions {excluded : Projection}
    (hx : exclusions settings = .ok excluded) : ∀ e ∈ excluded, e.2 = false := by
  intro e he
  obtain ⟨name, _, rfl⟩ := (mem_exclusions hx).mp he
  rfl

theorem mem_without_of_not_hidden {hidden : List Scalar} {key : Scalar}
    (hkey : hidden.contains key = false) (hmem : (key, true) ∈ p) :
    (key, true) ∈ without hidden (settle p) := by
  refine List.mem_filter.mpr ⟨mem_settle_of_shown.mpr hmem, ?_⟩
  rw [hkey]
  rfl

theorem includes_of_includes_without {hidden : List Scalar}
    (hi : includes (without hidden (settle p)) = true) : includes p = true := by
  obtain ⟨key, hid, hmem⟩ := includes_eq_true_iff.mp hi
  have hsettled := (List.mem_filter.mp hmem).1
  exact includes_eq_true_iff.mpr ⟨key, hid, mem_settle_of_shown.mp hsettled⟩

theorem admissible_settle (hhidden : settings.hiddenFields = []) (hne : settle p ≠ []) :
    Admissible settings.hiddenFields p (toDict (settle p)) := by
  rw [hhidden]
  refine admissible_toDict hne (fun _ _ => settle_oneMode) nofun (fun _ => nofun) ?_ ?_
  · exact fun _ _ _ hmem => mem_settle_of_shown.mpr hmem
  · intro hi key hmem
    rwa [settle_of_not_includes hi]

theorem admissible_without (hp : Named p)
    (hi : includes (without settings.hiddenFields (settle p)) = true) :
    Admissible settings.hiddenFields p (toDict (without settings.hiddenFields (settle p))) := by
  obtain ⟨shown, hid, hmem⟩ := includes_eq_true_iff.mp hi
  refine admissible_toDict (List.ne_nil_of_mem hmem) ?_ ?_ ?_ ?_ ?_
  · intro key other hkey hother
    exact settle_oneMode (List.mem_filter.mp hkey).1 (List.mem_filter.mp hother).1
  · intro name hname key heq hkey
    have hequal := hp.beq_of_shown (mem_settle_of_shown.mp (List.mem_filter.mp hkey).1) heq
    have hcontains : settings.hiddenFields.contains key = true :=
      List.contains_iff_exists_mem_beq.mpr ⟨name, hname, hequal⟩
    have hkept := (List.mem_filter.mp hkey).2
    rw [hcontains] at hkept
    cases hkept
  · intro hnone
    exact absurd (hnone shown hmem) hid
  · exact fun key _ hkey hasked => mem_without_of_not_hidden hkey hasked
  · intro hnot
    rw [includes_of_includes_without hi] at hnot
    cases hnot

theorem admissible_exclusions {excluded : Projection} (hx : exclusions settings = .ok excluded)
    (hne : excluded ≠ []) (hincludes : includes p = true)
    (hnone : includes (without settings.hiddenFields (settle p)) = false) :
    Admissible settings.hiddenFields p (toDict excluded) := by
  have hfalse (key : Scalar) : (key, true) ∉ excluded :=
    fun hkey => Bool.noConfusion (eq_false_of_mem_exclusions hx _ hkey)
  refine admissible_toDict hne ?_ ?_ ?_ ?_ ?_
  · exact fun key _ hkey => absurd hkey (hfalse key)
  · exact fun _ _ key _ => hfalse key
  · intro _ name hname
    exact ⟨name, .inr rfl, (mem_exclusions hx).mpr ⟨name, hname, rfl⟩⟩
  · intro key hid hkey hasked
    exact absurd (eq_id_of_not_includes hnone (mem_without_of_not_hidden hkey hasked)) hid
  · intro hnot
    rw [hincludes] at hnot
    cases hnot

theorem admissible_update {excluded : Projection} (hp : Named p) (hdistinct : Entries.Distinct p)
    (hi : includes p = false) (hx : exclusions settings = .ok excluded)
    (hne : Entries.update p excluded ≠ []) :
    Admissible settings.hiddenFields p (toDict (Entries.update p excluded)) := by
  have hfalse := eq_false_of_mem_exclusions hx
  have hshown {key : Scalar} (hkey : (key, true) ∈ Entries.update p excluded) :
      (key, true) ∈ p := by
    rcases Entries.mem_update hkey with hmem | ⟨x, hx, hxe⟩
    · exact hmem
    · rw [hfalse x hx] at hxe
      cases hxe
  refine admissible_toDict hne ?_ ?_ ?_ ?_ ?_
  · exact fun key _ hkey _ => .inl (eq_id_of_not_includes hi (hshown hkey))
  · intro name hname key heq hkey
    have hequal := hp.beq_of_shown (hshown hkey) heq
    have hmem : (name, false) ∈ excluded := (mem_exclusions hx).mpr ⟨name, hname, rfl⟩
    have hlast : Entries.get? (Entries.update p excluded) key = some false :=
      Entries.get?_update_of_forall hfalse (.inr ⟨_, hmem, BEq.symm hequal⟩)
    rw [(hdistinct.update excluded).get?_eq_some hkey (BEq.trans hequal (BEq.symm hequal))] at hlast
    cases hlast
  · intro _ name hname
    exact Entries.exists_mem_update hfalse ((mem_exclusions hx).mpr ⟨name, hname, rfl⟩)
  · intro key hid _ hasked
    exact absurd (eq_id_of_not_includes hi hasked) hid
  · exact fun _ key hasked => Entries.mem_update_of_mem hfalse hasked

theorem admissible_enforce {enforced : Projection} (hp : Named p) (hdistinct : Entries.Distinct p)
    (h : enforce settings p = .ok enforced) (hne : enforced ≠ []) :
    Admissible settings.hiddenFields p (toDict enforced) := by
  rcases enforce_cases h with
    ⟨hhidden, rfl⟩ | ⟨_, ⟨hi, rfl⟩ | ⟨hi, hnone, hx⟩ | ⟨hi, excluded, hx, rfl⟩⟩
  · exact admissible_settle hhidden hne
  · exact admissible_without hp hi
  · exact admissible_exclusions hx hne hi hnone
  · exact admissible_update hp hdistinct hi hx hne

theorem eq_nil_of_enforce (h : enforce settings p = .ok []) :
    settings.hiddenFields = [] ∧ p = [] := by
  have hexclusions {excluded : Projection} (hne : settings.hiddenFields ≠ [])
      (hx : exclusions settings = .ok excluded) : ∃ name, (name, false) ∈ excluded := by
    obtain ⟨name, hname⟩ := List.exists_mem_of_ne_nil _ hne
    exact ⟨name, (mem_exclusions hx).mpr ⟨name, hname, rfl⟩⟩
  rcases enforce_cases h with
    ⟨hhidden, hnil⟩ | ⟨hne, ⟨hi, _⟩ | ⟨_, _, hx⟩ | ⟨_, excluded, hx, hnil⟩⟩
  · refine ⟨hhidden, ?_⟩
    cases hi : includes p with
    | false => rw [← settle_of_not_includes hi, ← hnil]
    | true =>
      obtain ⟨key, _, hmem⟩ := includes_eq_true_iff.mp hi
      rw [← mem_settle_of_shown, ← hnil] at hmem
      cases hmem
  · cases hi
  · obtain ⟨name, hname⟩ := hexclusions hne hx
    cases hname
  · obtain ⟨name, hname⟩ := hexclusions hne hx
    obtain ⟨key, _, hmem⟩ := Entries.exists_mem_update (eq_false_of_mem_exclusions hx) hname
    rw [← hnil] at hmem
    cases hmem

theorem stages_admissible {scope : Scope} {q : QueryObject} {result : List Stage}
    (h : stages scope q = .ok result) :
    result = [] ∧ scope.settings.hiddenFields = [] ∧ requested scope q = [] ∨
      ∃ d, result = [.project d] ∧
        Admissible scope.settings.hiddenFields (requested scope q) d := by
  obtain ⟨enforced, he, h⟩ := Outcome.bind_eq_ok_iff.mp h
  cases h
  split
  · rename_i hempty
    rw [List.isEmpty_iff.mp hempty] at he
    exact .inl ⟨rfl, eq_nil_of_enforce he⟩
  · rename_i hne
    have hdistinct : Entries.Distinct (requested scope q) := by
      rw [requested, ofFields, Entries.ofList, Entries.update_nil]
      exact Entries.distinct_foldKeys _ _
    refine .inr ⟨_, rfl, admissible_enforce (named_ofFields _) hdistinct he ?_⟩
    exact fun hnil => hne (List.isEmpty_iff.mpr hnil)

end Projection

namespace Session

open Projection

/-- Limiting the fields adds one admissible projection, or nothing; nothing only when it fails, or
when no field is hidden and none is asked for. It does not fail when the hidden fields are names. -/
theorem limitFields_admissible {s : Session} (happlied : s.applied.contains .limitFields = false)
    (hcompiled : s.compiled = none) :
    let hidden := s.scope.settings.hiddenFields
    let asked := requested s.scope s.parameters
    ((∃ names : List String, hidden = names.map .text) →
        (s.apply .limitFields).1 = .ok .nothing) ∧
      ∃ stages, (s.apply .limitFields).2.stages = s.stages ++ stages ∧
        (stages = [] ∧
            ((s.apply .limitFields).1 = .ok .nothing → hidden = [] ∧ asked = []) ∨
          ∃ d, stages = [.project d] ∧ Admissible hidden asked d) := by
  intro hidden asked
  have hfresh : s.applied.contains Clause.limitFields.operation = false := happlied
  obtain ⟨log, happly⟩ := apply_of_open hfresh hcompiled
  rw [happly]
  constructor
  · intro hhidden
    obtain ⟨names, hnames⟩ := hhidden
    obtain ⟨enforced, he⟩ := enforce_ok hnames (requested s.scope s.parameters)
    rw [outcome, compile]
    change (Mismatch.lift (Projection.stages s.scope s.parameters)).map _ = _
    rw [Projection.stages, he]
    rfl
  · refine ⟨s.added .limitFields, rfl, ?_⟩
    rw [added]
    cases ho : s.outcome .limitFields with
    | error f =>
      refine .inl ⟨rfl, ?_⟩
      intro hdone
      cases hdone
    | ok stages =>
      have hstages : Projection.stages s.scope s.parameters = .ok stages :=
        Outcome.lift_eq_ok_iff.mp ho
      rcases stages_admissible hstages with ⟨hnil, hnone⟩ | hproject
      · exact .inl ⟨hnil, fun _ => hnone⟩
      · exact .inr hproject

theorem limitFields_admissible_contradictory :
    let settings : Settings := { hiddenFields := ["password"] }
    let schema : Schema :=
      { origin := .mapping, modelName := none,
        fields := [("name", { type := .string }), ("email", { type := .string })],
        translatable := ["name"], collection := none }
    let s : Session :=
      { scope := { schema, settings, asked := none }
        parameters :=
          { control := [("fields", .text "name;-email;password;-_id")], filters := [],
            joins := [] } }
    let hidden := s.scope.settings.hiddenFields
    let asked := requested s.scope s.parameters
    ((∃ names : List String, hidden = names.map .text) →
        (s.apply .limitFields).1 = .ok .nothing) ∧
      ∃ stages, (s.apply .limitFields).2.stages = s.stages ++ stages ∧
        (stages = [] ∧
            ((s.apply .limitFields).1 = .ok .nothing → hidden = [] ∧ asked = []) ∨
          ∃ d, stages = [.project d] ∧ Admissible hidden asked d) := by
  intro settings schema s
  exact limitFields_admissible rfl rfl

end Session

end QueryPipeline
