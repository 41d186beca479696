import QueryPipeline.Clause.Sort
import QueryPipeline.Proofs.Entries
import QueryPipeline.Proofs.Text.Blank
import QueryPipeline.Proofs.Text.Pieces

namespace QueryPipeline.Dict

theorem ofEntries_put (entries : Entries Value) (key : String) (v : Value) :
    ofEntries (Entries.put entries key v) = Entries.put (ofEntries entries) (.text key) v := by
  induction entries with
  | nil => rfl
  | cons e rest ih =>
    rw [Entries.put]
    change _ = Entries.put ((.text e.1, e.2) :: ofEntries rest) (.text key) v
    rw [Entries.put, Scalar.text_beq_text, ← ih]
    split
    · rfl
    · rfl

theorem ofEntries_ofList (pairs : Entries Value) :
    ofEntries (Entries.ofList pairs) = Entries.ofList (ofEntries pairs) := by
  have hupdate (more entries : Entries Value) :
      ofEntries (Entries.update entries more) =
        Entries.update (ofEntries entries) (ofEntries more) := by
    induction more generalizing entries with
    | nil => rfl
    | cons e rest ih =>
      refine (ih (Entries.put entries e.1 e.2)).trans ?_
      rw [ofEntries_put]
      rfl
  exact hupdate pairs []

end QueryPipeline.Dict

namespace QueryPipeline.Sort

open Text

structure Key where
  field : String
  descending : Bool
  nonempty : field ≠ ""
  unseparated : ';' ∉ field.toList
  unsigned : field.toList.head? ≠ some '-'
  bare : Bare field.toList

namespace Key

variable (key : Key)

def token : List Char :=
  if key.descending then '-' :: key.field.toList else key.field.toList

def direction : Int :=
  if key.descending then -1 else 1

theorem field_ne_nil : key.field.toList ≠ [] :=
  fun h => key.nonempty (String.toList_eq_nil_iff.mp h)

theorem token_ne_nil : key.token ≠ [] := by
  rw [token]
  split
  · exact List.cons_ne_nil _ _
  · exact key.field_ne_nil

theorem notMem_token : ';' ∉ key.token := by
  rw [token]
  split
  · rw [List.mem_cons, not_or]
    exact ⟨by decide, key.unseparated⟩
  · exact key.unseparated

theorem bare_token : Bare key.token := by
  rw [token]
  split
  · exact key.bare.cons (by decide) key.field_ne_nil
  · exact key.bare

theorem readToken_token : readToken key.token = (key.field.toList, key.direction) := by
  rw [readToken, key.bare_token.strip_eq, token, direction]
  cases key.descending with
  | true => rfl
  | false =>
    simp only [Bool.false_eq_true, ↓reduceIte]
    -- Without a minus in front the token is the field itself.
    split
    · rename_i field hminus
      have hunsigned := key.unsigned
      rw [hminus] at hunsigned
      exact absurd rfl hunsigned
    · rfl

end Key

def written (keys : List Key) : String :=
  String.ofList (joinWith ';' (keys.map Key.token))

def specOf (keys : List Key) : Dict :=
  keys.map fun key => (.text key.field, .int key.direction)

variable {keys : List Key}

theorem written_ne_empty (h : keys ≠ []) : written keys ≠ "" := by
  obtain ⟨key, rest, rfl⟩ := List.exists_cons_of_ne_nil h
  obtain ⟨c, token, htoken⟩ := List.exists_cons_of_ne_nil key.token_ne_nil
  intro hempty
  have hnil := congrArg String.toList hempty
  rw [written, String.toList_ofList, List.map_cons, htoken] at hnil
  cases hr : rest.map Key.token <;> rw [hr] at hnil <;> cases hnil

theorem distinct_specOf (h : (keys.map Key.field).Nodup) : Entries.Distinct (specOf keys) := by
  rw [specOf, Entries.Distinct, List.pairwise_map]
  apply (List.pairwise_map.mp h).imp
  intro a b hne
  rw [Scalar.text_beq_text]
  exact beq_eq_false_iff_ne.mpr hne

/-- A list of keys is read as it was written. -/
theorem readSpec_written (hne : keys ≠ []) (h : (keys.map Key.field).Nodup) :
    Dict.ofEntries (readSpec (written keys)) = specOf keys := by
  have hsplit : splitOn ';' (written keys).toList = keys.map Key.token := by
    rw [written, String.toList_ofList]
    apply splitOn_joinWith
    · rwa [ne_eq, List.map_eq_nil_iff]
    · intro token ht
      obtain ⟨key, _, rfl⟩ := List.mem_map.mp ht
      exact key.notMem_token
  have hread : (keys.map Key.token).map readToken =
      keys.map fun key => (key.field.toList, key.direction) := by
    rw [List.map_map]
    exact List.map_congr_left fun key _ => key.readToken_token
  have hfilter : (keys.map fun key => (key.field.toList, key.direction)).filter
      (fun token => token.1 ≠ []) = keys.map fun key => (key.field.toList, key.direction) := by
    rw [List.filter_eq_self]
    intro token ht
    obtain ⟨key, _, rfl⟩ := List.mem_map.mp ht
    exact decide_eq_true key.field_ne_nil
  have hentries : Dict.ofEntries (readSpec (written keys)) = Entries.ofList (specOf keys) := by
    rw [readSpec, hsplit, hread, hfilter, Dict.ofEntries_ofList, List.map_map, Dict.ofEntries,
      List.map_map, specOf]
    simp only [Function.comp_def, String.ofList_toList]
  rw [hentries]
  exact Entries.update_of_distinct (distinct_specOf h)

end QueryPipeline.Sort
