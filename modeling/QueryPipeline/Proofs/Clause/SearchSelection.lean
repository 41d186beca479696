import Mathlib.Algebra.BigOperators.Fin
import QueryPipeline.Proofs.Clause.Relevance

namespace QueryPipeline.Search

def alternative? (document : Document) : Value → Option Bool
  | .map [(path, .map [("$regex", regex), ("$options", options)])] =>
    some (document path regex options)
  | _ => none

def selects? (document : Document) : Dict → Option Bool
  | [("$or", .list (first :: rest))] =>
    ((first :: rest).mapM (alternative? document)).map fun results => results.any id
  | _ => none

def selection (scope : Scope) (s : Search) : Dict :=
  [("$or", .list ((s.paths scope).map s.alternative))]

variable {scope : Scope} {s : Search} {found : String → Bool} {paths : List String}

theorem mapM_alternative? (document : Document) (paths : List String) :
    (paths.map s.alternative).mapM (alternative? document) =
      some (paths.map (s.found document)) := by
  induction paths with
  | nil => rfl
  | cons path rest ih =>
    rw [List.map_cons, List.mapM_cons, ih]
    rfl

theorem selects?_alternatives (h : paths ≠ []) (document : Document) :
    selects? document [("$or", .list (paths.map s.alternative))] =
      some (paths.any (s.found document)) := by
  obtain ⟨first, rest, rfl⟩ := List.exists_cons_of_ne_nil h
  have hall := mapM_alternative? (s := s) document (first :: rest)
  rw [List.map_cons] at hall ⊢
  rw [selects?, hall, Option.map_some, List.any_map]
  rfl

theorem weight_eq_sum (found : String → Bool) (paths : List String) :
    (weight found paths : ℤ) =
      ∑ i : Fin paths.length, if found paths[i] then (paths.length : ℤ) - i else 0 := by
  induction paths with
  | nil => rfl
  | cons path rest ih =>
    rw [weight, Nat.cast_add, ih]
    simp only [List.length_cons]
    rw [Fin.sum_univ_succ]
    congr 1
    · simp
    · refine Finset.sum_congr rfl fun i _ => ?_
      simp

theorem weight_pos_iff : 0 < weight found paths ↔ paths.any found = true := by
  rw [List.any_eq_true]
  constructor
  · intro hpos
    by_contra hnone
    refine Nat.ne_of_gt hpos (weight_eq_zero fun path hpath => ?_)
    exact Bool.eq_false_iff.mpr fun hfound => hnone ⟨path, hpath, hfound⟩
  · rintro ⟨path, hpath, hfound⟩
    obtain ⟨before, rest, rfl⟩ := List.append_of_mem hpath
    exact Nat.zero_lt_of_lt (lt_weight_of_found hfound)

theorem paths_ne_nil (h : s.isApplicable scope = true) : s.paths scope ≠ [] := by
  have hfields : s.fields ≠ [] := by
    intro hnil
    rw [isApplicable, isGiven, hnil, List.isEmpty_nil] at h
    simp at h
  obtain ⟨field, hfield⟩ := List.exists_mem_of_ne_nil _ hfields
  obtain ⟨before, last, hlast⟩ := Scope.exists_last_queryPath scope field
  have hmem : last ∈ scope.queryPaths field := hlast ▸ List.mem_concat_self
  exact List.ne_nil_of_mem (List.mem_flatMap.mpr ⟨field, hfield, hmem⟩)

theorem stages_of_applicable (h : s.isApplicable scope = true) :
    ∃ sorts, s.stages scope = .matching (s.selection scope) ::
      .addFields [(.text relevanceField, s.scoring scope)] :: sorts := by
  rw [stages, if_pos h]
  exact ⟨_, rfl⟩

end QueryPipeline.Search

namespace QueryPipeline.Session

open Search

/-- A search that can be made selects a document just when it scores it below zero, and scores it
zero otherwise. The score takes off, for each path with the text, how many paths there are from it
on. -/
theorem search_selects_iff {s : Session} {fields : Value} {search : Search}
    (happlied : s.applied.contains .search = false) (hcompiled : s.compiled = none)
    (hread : Search.read s.parameters fields = .ok search)
    (happlicable : search.isApplicable s.scope = true) :
    ∃ criteria score sorts after, s.apply (.search fields) = (.ok .nothing, after) ∧
      after.stages =
        s.stages ++ .matching criteria :: .addFields [(.text relevanceField, score)] :: sorts ∧
      let paths := search.fields.flatMap s.scope.queryPaths
      paths.length = (search.fields.map fun field => (s.scope.queryPaths field).length).sum ∧
      ∀ document : Document, ∃ selected n,
        selects? document criteria = some selected ∧ score? document score = some n ∧
        (selected = true ↔ n < 0) ∧ (selected = false ↔ n = 0) ∧
        n = -∑ i : Fin paths.length,
          if search.found document paths[i] then (paths.length : ℤ) - i else 0 := by
  have hc : s.compile (.search fields) =
      .ok { lines := searchLines s.scope search, stages := .ok (search.stages s.scope) } := by
    rw [compile, hread]
    rfl
  have hfresh : s.applied.contains (Clause.search fields).operation = false := happlied
  obtain ⟨sorts, hstages⟩ := stages_of_applicable happlicable
  refine ⟨search.selection s.scope, search.scoring s.scope, sorts, _,
    apply_eq hfresh hcompiled hc rfl, by rw [hstages], List.length_flatMap, fun document => ?_⟩
  have hselected : 0 < weight (search.found document) (search.paths s.scope) ↔
      (search.paths s.scope).any (search.found document) = true := weight_pos_iff
  refine ⟨_, _, selects?_alternatives (paths_ne_nil happlicable) document,
    score?_terms search document (search.paths s.scope), ?_, ?_, ?_⟩
  · rw [← hselected]
    omega
  · rw [Bool.eq_false_iff, ne_eq, ← hselected]
    omega
  · rw [weight_eq_sum]
    rfl

/-- The description is stored per language and the name comes twice: of four paths the name has the
third one and the last one. -/
theorem search_selects_iff_repeated_name :
    let schema : Schema :=
      { origin := .mapping, modelName := none,
        fields := [("name", { type := .string }), ("description", { type := .string })],
        translatable := ["description"], collection := none }
    let s : Session :=
      { scope := { schema, settings := { translates := .bool true }, asked := some (.text "it") }
        parameters := { control := [("search", .text "blue")], filters := [], joins := [] } }
    let search : Search :=
      { text := "blue", fields := ["description", "name", "name"], direction := none }
    let document := withTextAt fun path => path = "name"
    search.isApplicable s.scope = true ∧
      ∃ criteria score sorts after,
        s.apply (.search (.text "description;name; name")) = (.ok .nothing, after) ∧
        after.stages =
          s.stages ++ .matching criteria :: .addFields [(.text relevanceField, score)] :: sorts ∧
        selects? document criteria = some true ∧ score? document score = some (-3) := by
  intro schema s search document
  have happlicable : search.isApplicable s.scope = true := by decide +kernel
  have happlied : s.applied.contains .search = false := rfl
  have hread : Search.read s.parameters (.text "description;name; name") = .ok search := rfl
  obtain ⟨criteria, score, sorts, after, happly, hstages, -, hall⟩ :=
    search_selects_iff happlied rfl hread happlicable
  obtain ⟨selected, n, hselects, hscore, hbelow, -, hn⟩ := hall document
  have hthree : n = -3 := by
    rw [hn]
    decide +kernel
  have hselected : selected = true := hbelow.mpr (by rw [hthree]; decide)
  rw [hselected] at hselects
  rw [hthree] at hscore
  exact ⟨happlicable, criteria, score, sorts, after, happly, hstages, hselects, hscore⟩

end QueryPipeline.Session
