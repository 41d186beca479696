import QueryPipeline.Proofs.Clause.Projection
import QueryPipeline.Proofs.Request.Application

namespace QueryPipeline

namespace Path

/-- Is `path` equal to `key` or beneath it? -/
def Covers (key path : String) : Prop :=
  path = key ∨ isWithin key path = true

theorem covers_iff {key path : String} :
    Covers key path ↔ key.toList ++ ['.'] <+: path.toList ++ ['.'] := by
  rw [Covers, isWithin, List.isPrefixOf_iff_prefix, List.prefix_concat_iff, List.append_left_inj,
    String.toList_inj, eq_comm]

theorem exists_covers_iff {key other : String} :
    (∃ path, Covers key path ∧ Covers other path) ↔ Covers key other ∨ Covers other key := by
  constructor
  · intro hboth
    obtain ⟨path, hk, ho⟩ := hboth
    rw [covers_iff] at hk ho ⊢
    rw [covers_iff]
    exact List.prefix_or_prefix_of_prefix hk ho
  · intro hline
    rcases hline with h | h
    · exact ⟨other, h, .inl rfl⟩
    · exact ⟨key, .inl rfl, h⟩

theorem covers_id_iff {key : String} : Covers key "_id" ↔ key = "_id" := by
  constructor
  · intro hcovers
    rcases hcovers with h | h
    · exact h.symm
    · have hdot : '.' ∈ "_id".toList :=
        (List.isPrefixOf_iff_prefix.mp h).subset
          (List.mem_append_right _ (List.mem_singleton.mpr rfl))
      simp at hdot
  · intro h
    exact .inl h.symm

end Path

namespace Projection

def Inclusive (d : Dict) : Prop :=
  ∃ key, key ≠ "_id" ∧ (.text key, .int 1) ∈ d

/-- The stored paths that the engine returns: with an included field, those that an included field
covers, and the id unless it is excluded; without one, those that no excluded field covers. -/
def Returns (d : Dict) (path : String) : Prop :=
  Inclusive d ∧ ((∃ key, (.text key, .int 1) ∈ d ∧ Path.Covers key path) ∨
    path = "_id" ∧ (.text "_id", .int 0) ∉ d) ∨
  ¬Inclusive d ∧ ∀ key, (.text key, .int 0) ∈ d → ¬Path.Covers key path

def Kept (names : List String) (p : Projection) (field : String) : Prop :=
  field ∉ names ∧ (.text field, true) ∈ p

/-- Something besides the id is kept, and the id is hidden, or what is kept contains a hidden field
or lies within one. -/
def Exposes (names : List String) (p : Projection) : Prop :=
  Keeps names p ∧ ("_id" ∈ names ∨ ∃ name ∈ names, ∃ field, Kept names p field ∧
    (Path.Covers name field ∨ Path.Covers field name))

theorem mem_toDict {p : Projection} {key : Scalar} (shown : Bool) :
    (key, .int (if shown then 1 else 0)) ∈ toDict p ↔ (key, shown) ∈ p := by
  rw [toDict, List.mem_map]
  constructor
  · intro hmem
    obtain ⟨⟨other, other'⟩, he, h⟩ := hmem
    obtain ⟨rfl, hn⟩ := Prod.mk.inj h
    have heq : other' = shown := by cases other' <;> cases shown <;> simp at hn ⊢
    rwa [← heq]
  · intro he
    exact ⟨_, he, rfl⟩

theorem mem_toDict_one {p : Projection} {key : Scalar} :
    (key, .int 1) ∈ toDict p ↔ (key, true) ∈ p :=
  mem_toDict true

theorem mem_toDict_zero {p : Projection} {key : Scalar} :
    (key, .int 0) ∈ toDict p ↔ (key, false) ∈ p :=
  mem_toDict false

theorem HidesAll.not_returns {names : List String} {p : Projection} (h : HidesAll names p)
    {name path : String} (hn : name ∈ names) (hc : Path.Covers name path) :
    ¬Returns (toDict p) path := by
  intro hreturns
  rcases hreturns with ⟨⟨key, hid, hk⟩, _⟩ | ⟨_, hx⟩
  · exact hid (h.2 key (mem_toDict_one.mp hk))
  · exact hx name (mem_toDict_zero.mpr (h.1 name hn)) hc

section Kept

variable {names : List String} {p : Projection}

theorem mem_kept {field : String} :
    (.text field, .int 1) ∈ toDict (without (names.map .text) (settle p)) ↔
      Kept names p field := by
  rw [mem_toDict_one, mem_without, mem_settle_of_shown, Kept, and_comm]

theorem Keeps.inclusive (h : Keeps names p) :
    Inclusive (toDict (without (names.map .text) (settle p))) := by
  obtain ⟨field, hid, hn, he⟩ := h
  exact ⟨field, hid, mem_kept.mpr ⟨hn, he⟩⟩

theorem id_not_excluded (h : "_id" ∈ names) :
    (.text "_id", .int 0) ∉ toDict (without (names.map .text) (settle p)) := by
  rw [mem_toDict_zero, mem_without]
  exact fun he => he.2 h

theorem Keeps.returns_hidden_iff (h : Keeps names p) :
    (∃ name ∈ names, ∃ path, Path.Covers name path ∧
      Returns (toDict (without (names.map .text) (settle p))) path) ↔ Exposes names p := by
  constructor
  · intro hleak
    obtain ⟨name, hn, path, hc, hr⟩ := hleak
    rcases hr with ⟨_, ⟨field, hf, hcf⟩ | ⟨rfl, _⟩⟩ | ⟨hnot, _⟩
    · exact ⟨h, .inr ⟨name, hn, field, mem_kept.mp hf, Path.exists_covers_iff.mp ⟨path, hc, hcf⟩⟩⟩
    · cases Path.covers_id_iff.mp hc
      exact ⟨h, .inl hn⟩
    · exact absurd h.inclusive hnot
  · intro hexposes
    rcases hexposes.2 with hid | ⟨name, hn, field, hf, hc⟩
    · exact ⟨"_id", hid, "_id", .inl rfl,
        .inl ⟨h.inclusive, .inr ⟨rfl, id_not_excluded hid⟩⟩⟩
    · obtain ⟨path, hcn, hcf⟩ := Path.exists_covers_iff.mpr hc
      exact ⟨name, hn, path, hcn, .inl ⟨h.inclusive, .inl ⟨field, mem_kept.mpr hf, hcf⟩⟩⟩

end Kept

theorem stages_spec {scope : Scope} {q : QueryObject} {names : List String}
    (hs : scope.settings.hiddenFields = names.map .text) (hne : names ≠ []) :
    ∃ d, stages scope q = .ok [.project d] ∧
      ((∃ name ∈ names, ∃ path, Path.Covers name path ∧ Returns d path) ↔
        Exposes names (requested scope q)) := by
  obtain ⟨enforced, he, hcases⟩ := enforce_spec (named_ofFields _) hs hne
  refine ⟨toDict enforced, ?_, ?_⟩
  · have hnil : enforced ≠ [] := by
      rcases hcases with ⟨⟨field, _, hn, hf⟩, rfl⟩ | ⟨_, hides, _⟩
      · exact List.ne_nil_of_mem (mem_without.mpr ⟨mem_settle_of_shown.mpr hf, hn⟩)
      · obtain ⟨name, hn⟩ := List.exists_mem_of_ne_nil names hne
        exact List.ne_nil_of_mem (hides name hn)
    rw [stages, requested, he]
    exact congrArg Except.ok (if_neg (by rwa [List.isEmpty_iff]))
  · rcases hcases with ⟨hk, rfl⟩ | ⟨hk, hides⟩
    · exact hk.returns_hidden_iff
    · constructor
      · intro hleak
        obtain ⟨name, hn, path, hc, hr⟩ := hleak
        exact absurd hr (hides.not_returns hn hc)
      · exact fun h => absurd h.1 hk

end Projection

namespace Session

open Projection

/-- Limiting the fields always adds a projection when some are hidden. It returns a hidden field, or
something beneath one, just when the query exposes it. -/
theorem limitFields_returns_hidden_iff {s : Session} {names : List String}
    (happlied : s.applied.contains .limitFields = false) (hcompiled : s.compiled = none)
    (hs : s.scope.settings.hiddenFields = names.map .text) (hne : names ≠ []) :
    ∃ d after, s.apply .limitFields = (.ok .nothing, after) ∧
      after.stages = s.stages ++ [.project d] ∧
      ((∃ name ∈ names, ∃ path, Path.Covers name path ∧ Returns d path) ↔
        Exposes names (requested s.scope s.parameters)) := by
  obtain ⟨d, hd, hreturns⟩ := stages_spec hs hne
  have hstages : Mismatch.lift (Projection.stages s.scope s.parameters) = .ok [.project d] := by
    rw [hd]
    rfl
  exact ⟨d, _, apply_eq happlied hcompiled rfl hstages, rfl, hreturns⟩

theorem limitFields_returns_hidden_iff_password :
    let settings : Settings := { hiddenFields := ["password"] }
    let schema : Schema :=
      { origin := .mapping, modelName := none, fields := [("name", { type := .string })],
        translatable := [], collection := none }
    let s : Session :=
      { scope := { schema, settings, asked := none }
        parameters :=
          { control := [("fields", .text "name;password")], filters := [], joins := [] } }
    ∃ d after, s.apply .limitFields = (.ok .nothing, after) ∧ after.stages = [.project d] ∧
      ((∃ name ∈ ["password"], ∃ path, Path.Covers name path ∧ Returns d path) ↔
        Exposes ["password"] (requested s.scope s.parameters)) := by
  intro settings schema s
  have hs : s.scope.settings.hiddenFields = ["password"].map .text := rfl
  exact limitFields_returns_hidden_iff rfl rfl hs (List.cons_ne_nil _ _)

/-- A field beneath a hidden one is returned to whoever asks for it, and so is a hidden id. -/
theorem limitFields_returns_account_password :
    let settings : Settings := { hiddenFields := ["account", "_id"] }
    let schema : Schema :=
      { origin := .mapping, modelName := none,
        fields := [("account.password", { type := .string })],
        translatable := [], collection := none }
    let query : Value := .map [("fields", .text "account.password")]
    let s : Session :=
      { scope := { schema, settings, asked := none }
        parameters :=
          { control := [("fields", .text "account.password")], filters := [], joins := [] } }
    let d : Dict := [(.text "account.password", .int 1)]
    start (.schema schema) settings query .null = ([], .ok s) ∧
      (s.apply .limitFields).1 = .ok .nothing ∧ (s.apply .limitFields).2.stages = [.project d] ∧
      (Path.Covers "account" "account.password" ∧ Returns d "account.password") ∧
      Path.Covers "_id" "_id" ∧ Returns d "_id" := by
  have hincl : Inclusive [(.text "account.password", .int 1)] :=
    ⟨"account.password", by decide, List.mem_singleton.mpr rfl⟩
  have hid : (.text "_id", .int 0) ∉ [(Scalar.text "account.password", Value.int 1)] := by simp
  refine ⟨rfl, rfl, rfl, ⟨.inr (by decide), .inl ⟨hincl, .inl ?_⟩⟩, .inl rfl,
    .inl ⟨hincl, .inr ⟨rfl, hid⟩⟩⟩
  exact ⟨"account.password", List.mem_singleton.mpr rfl, .inl rfl⟩

end Session

end QueryPipeline
