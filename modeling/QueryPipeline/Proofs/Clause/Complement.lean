import QueryPipeline.Clause.Filter
import QueryPipeline.Proofs.Outcome
import QueryPipeline.Proofs.Pipeline.CriteriaMeaning

namespace QueryPipeline

namespace Criteria

/-- The negative operators deny what the positive conditions say of a value at these paths. -/
structure Atoms.Denies (atoms : Atoms) (paths : List String) (v : Value) : Prop where
  ne : ∀ path ∈ paths, atoms.operator path "$ne" v ↔ ¬EntryHolds atoms path v
  nin : ∀ path ∈ paths, atoms.operator path "$nin" v ↔ ¬atoms.operator path "$in" v

/-- Some criteria are true where something holds at a path, others where it fails at a path. -/
structure Opposed (atoms : Atoms) (paths : List String) (holdsAt : String → Prop)
    (positive negative : Entries Value) : Prop where
  affirms : Holds atoms (.map positive) ↔ ∃ path ∈ paths, holdsAt path
  denies : Holds atoms (.map negative) ↔ ∃ path ∈ paths, ¬holdsAt path
  complement : (Holds atoms (.map negative) ↔ ¬Holds atoms (.map positive)) ↔
    ∀ path ∈ paths, ∀ path' ∈ paths, holdsAt path → holdsAt path'

variable {atoms : Atoms} {paths : List String} {holdsAt : String → Prop}

theorem holds_single {path : String} {condition : Value} :
    Holds atoms (.map [(path, condition)]) ↔ EntryHolds atoms path condition := by
  rw [Holds, EntriesHold, EntriesHold, and_true]

theorem entryHolds_operator {key : Scalar} {operator : String} (h : isOperator operator = true)
    (v : Value) : EntryHolds atoms key (.map [(operator, v)]) ↔ atoms.operator key operator v := by
  have hdocument : operators? (.map [(operator, v)]) = some [(operator, v)] :=
    operators?_map (by simp [isOperatorDocument, h])
  rw [entryHolds_operators hdocument, List.forall_mem_singleton]

theorem holds_anyPath (condition : Value) :
    Holds atoms (.map (Scope.anyPath paths condition)) ↔
      ∃ path ∈ paths, EntryHolds atoms path condition := by
  unfold Scope.anyPath
  split
  · rw [holds_single]
    simp
  · rw [holds_single, entryHolds_or]
    simp only [List.mem_map, exists_exists_and_eq_and, holds_single]

theorem exists_not_iff_not_exists (hpaths : paths ≠ []) :
    ((∃ path ∈ paths, ¬holdsAt path) ↔ ¬∃ path ∈ paths, holdsAt path) ↔
      ∀ path ∈ paths, ∀ path' ∈ paths, holdsAt path → holdsAt path' := by
  obtain ⟨first, hfirst⟩ := List.exists_mem_of_ne_nil paths hpaths
  constructor
  · intro hcomplement path hpath path' hpath' hholds
    by_contra hfails
    exact hcomplement.mp ⟨path', hpath', hfails⟩ ⟨path, hpath, hholds⟩
  · intro hagree
    constructor
    · intro hsome hnone
      obtain ⟨path, hpath, hfails⟩ := hsome
      obtain ⟨path', hpath', hholds⟩ := hnone
      exact hfails (hagree path' hpath' path hpath hholds)
    · intro hnone
      exact ⟨first, hfirst, fun hholds => hnone ⟨first, hfirst, hholds⟩⟩

theorem opposed_anyPath (hpaths : paths ≠ []) {positive negative : Value}
    (hpositive : ∀ path ∈ paths, EntryHolds atoms path positive ↔ holdsAt path)
    (hnegative : ∀ path ∈ paths, EntryHolds atoms path negative ↔ ¬holdsAt path) :
    Opposed atoms paths holdsAt (Scope.anyPath paths positive) (Scope.anyPath paths negative) := by
  have hp : Holds atoms (.map (Scope.anyPath paths positive)) ↔ ∃ path ∈ paths, holdsAt path :=
    (holds_anyPath positive).trans (exists_congr fun path => and_congr_right (hpositive path))
  have hn : Holds atoms (.map (Scope.anyPath paths negative)) ↔ ∃ path ∈ paths, ¬holdsAt path :=
    (holds_anyPath negative).trans (exists_congr fun path => and_congr_right (hnegative path))
  refine ⟨hp, hn, ?_⟩
  rw [hp, hn]
  exact exists_not_iff_not_exists hpaths

theorem Opposed.complement_of_single {path : String} {positive negative : Entries Value}
    (h : Opposed atoms [path] holdsAt positive negative) :
    Holds atoms (.map negative) ↔ ¬Holds atoms (.map positive) := by
  apply h.complement.mpr
  intro p hp p' hp' hholds
  rwa [List.mem_singleton.mp hp', ← List.mem_singleton.mp hp]

def Atoms.ofPlain (plain : Scalar → Value → Prop)
    (congr : ∀ {k l : Scalar}, (k == l) = true → ∀ v, plain k v ↔ plain l v) : Atoms where
  plain := plain
  operator key operator v :=
    match operator with
    | "$ne" => ¬plain key v
    | "$in" => ∃ items, v = .list items ∧ ∃ item ∈ items, plain key item
    | "$nin" => ¬∃ items, v = .list items ∧ ∃ item ∈ items, plain key item
    | _ => False
  plain_congr := congr
  operator_congr := by
    intro k l h operator v
    simp only [congr h]

end Criteria

namespace Scope

open Criteria

variable {scope : Scope} {field : String}

/-- A filter and its negation look at the same paths. They are complements when there is one path,
and otherwise for the documents that agree at all of them. -/
theorem criteria_opposed {v w : Value}
    (hw : Coerce.values field (scope.schema.declaredType? field) v = .ok w) :
    ∃ equal unequal member excluded,
      scope.criteria (.equals field v) = .ok equal ∧
      scope.criteria (.operator field "$ne" v) = .ok unequal ∧
      scope.criteria (.operator field "$in" v) = .ok member ∧
      scope.criteria (.operator field "$nin" v) = .ok excluded ∧
      ∀ atoms : Atoms, atoms.Denies (scope.queryPaths field) w →
        Opposed atoms (scope.queryPaths field) (fun path => EntryHolds atoms path w)
          equal unequal ∧
        Opposed atoms (scope.queryPaths field) (fun path => atoms.operator path "$in" w)
          member excluded ∧
        (scope.isTranslatable field = false →
          (Holds atoms (.map unequal) ↔ ¬Holds atoms (.map equal)) ∧
          (Holds atoms (.map excluded) ↔ ¬Holds atoms (.map member))) := by
  have hequal : scope.criteria (.equals field v) = .ok (anyPath (scope.queryPaths field) w) := by
    rw [criteria, condition, hw]
    rfl
  have hoperator (operator : String) : scope.criteria (.operator field operator v) =
      .ok (anyPath (scope.queryPaths field) (.map [(operator, w)])) := by
    rw [criteria, condition, hw]
    rfl
  refine ⟨_, _, _, _, hequal, hoperator "$ne", hoperator "$in", hoperator "$nin", ?_⟩
  intro atoms hdenies
  have hcompared : Opposed atoms (scope.queryPaths field) (fun path => EntryHolds atoms path w)
      (anyPath (scope.queryPaths field) w)
      (anyPath (scope.queryPaths field) (.map [("$ne", w)])) := by
    apply opposed_anyPath queryPaths_ne_nil
    · exact fun _ _ => Iff.rfl
    · exact fun path hpath => (entryHolds_operator (by decide) w).trans (hdenies.ne path hpath)
  have hlisted : Opposed atoms (scope.queryPaths field) (fun path => atoms.operator path "$in" w)
      (anyPath (scope.queryPaths field) (.map [("$in", w)]))
      (anyPath (scope.queryPaths field) (.map [("$nin", w)])) := by
    apply opposed_anyPath queryPaths_ne_nil
    · exact fun _ _ => entryHolds_operator (by decide) w
    · exact fun path hpath => (entryHolds_operator (by decide) w).trans (hdenies.nin path hpath)
  refine ⟨hcompared, hlisted, fun hplain => ?_⟩
  rw [queryPaths_of_not_translatable hplain] at hcompared hlisted ⊢
  exact ⟨hcompared.complement_of_single, hlisted.complement_of_single⟩

theorem criteria_opposed_translated_price :
    let schema : Schema :=
      { origin := .mapping, modelName := none, fields := [("price", { type := .number })],
        translatable := [.text "price"], collection := none }
    let scope : Scope :=
      { schema, settings := { translates := .bool true }, asked := some (.text "it") }
    let v : Value := .list [.text "1", .text "2"]
    let w : Value := .list [.int 1, .int 2]
    let paths : List String := ["translations.it.price", "translations.en.price"]
    Coerce.values "price" (scope.schema.declaredType? "price") v = .ok w ∧
      scope.queryPaths "price" = paths ∧
      ∃ equal unequal member excluded,
        scope.criteria (.equals "price" v) = .ok equal ∧
        scope.criteria (.operator "price" "$ne" v) = .ok unequal ∧
        scope.criteria (.operator "price" "$in" v) = .ok member ∧
        scope.criteria (.operator "price" "$nin" v) = .ok excluded ∧
        ∀ atoms : Atoms, atoms.Denies paths w →
          Opposed atoms paths (fun path => EntryHolds atoms path w) equal unequal ∧
          Opposed atoms paths (fun path => atoms.operator path "$in" w) member excluded ∧
          (scope.isTranslatable "price" = false →
            (Holds atoms (.map unequal) ↔ ¬Holds atoms (.map equal)) ∧
            (Holds atoms (.map excluded) ↔ ¬Holds atoms (.map member))) := by
  intro schema scope v w paths
  have hw : Coerce.values "price" (scope.schema.declaredType? "price") v = .ok w := rfl
  have hpaths : scope.queryPaths "price" = paths := by decide +kernel
  refine ⟨hw, hpaths, ?_⟩
  rw [← hpaths]
  exact criteria_opposed hw

/-- A document with one value in the language of the request and another in the default language is
found by a filter and by its negation. -/
theorem criteria_equal_and_unequal :
    let schema : Schema :=
      { origin := .mapping, modelName := none, fields := [("name", { type := .string })],
        translatable := [.text "name"], collection := none }
    let scope : Scope :=
      { schema, settings := { translates := .bool true }, asked := some (.text "it") }
    let x : Value := .text "X"
    ∃ equal unequal member excluded, ∃ atoms : Atoms,
      scope.criteria (.equals "name" x) = .ok equal ∧
      scope.criteria (.operator "name" "$ne" x) = .ok unequal ∧
      scope.criteria (.operator "name" "$in" (.list [x])) = .ok member ∧
      scope.criteria (.operator "name" "$nin" (.list [x])) = .ok excluded ∧
      atoms.Denies (scope.queryPaths "name") x ∧
      atoms.Denies (scope.queryPaths "name") (.list [x]) ∧
      Holds atoms (.map equal) ∧ Holds atoms (.map unequal) ∧
      Holds atoms (.map member) ∧ Holds atoms (.map excluded) := by
  intro schema scope x
  let atoms : Atoms :=
    .ofPlain
      (fun key v => (key == "translations.it.name") = true ∧ v = .text "X" ∨
        (key == "translations.en.name") = true ∧ v = .text "Y")
      (fun h v => by rw [BEq.congr_left h, BEq.congr_left h])
  have hpaths : scope.queryPaths "name" = ["translations.it.name", "translations.en.name"] := by
    decide +kernel
  have hitalian : "translations.it.name" ∈ scope.queryPaths "name" := by simp [hpaths]
  have henglish : "translations.en.name" ∈ scope.queryPaths "name" := by simp [hpaths]
  have hfound : atoms.plain "translations.it.name" x := .inl ⟨rfl, rfl⟩
  have hmissed : ¬atoms.plain "translations.en.name" x := by simp [atoms, Atoms.ofPlain, x]
  have hdenies : atoms.Denies (scope.queryPaths "name") x :=
    ⟨fun _ _ => Iff.rfl, fun _ _ => Iff.rfl⟩
  have hdeniesList : atoms.Denies (scope.queryPaths "name") (.list [x]) := by
    refine ⟨?_, fun _ _ => Iff.rfl⟩
    simp [hpaths, EntryHolds, atoms, Atoms.ofPlain]
  refine ⟨_, _, _, _, atoms, rfl, rfl, rfl, rfl, hdenies, hdeniesList, ?_, ?_, ?_, ?_⟩
  · apply (holds_anyPath _).mpr
    exact ⟨_, hitalian, hfound⟩
  · apply (holds_anyPath _).mpr
    exact ⟨_, henglish, (entryHolds_operator (by decide) x).mpr hmissed⟩
  · apply (holds_anyPath _).mpr
    refine ⟨_, hitalian, (entryHolds_operator (by decide) _).mpr ?_⟩
    exact ⟨[x], rfl, x, List.mem_singleton_self x, hfound⟩
  · apply (holds_anyPath _).mpr
    refine ⟨_, henglish, (entryHolds_operator (by decide) _).mpr ?_⟩
    rintro ⟨items, hitems, item, hitem, hplain⟩
    cases hitems
    cases List.mem_singleton.mp hitem
    exact hmissed hplain

end Scope

end QueryPipeline
