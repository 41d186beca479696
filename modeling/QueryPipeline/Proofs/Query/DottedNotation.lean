import Mathlib.Data.List.Nodup
import Mathlib.Data.List.TakeWhile
import QueryPipeline.Proofs.Path
import QueryPipeline.Proofs.Query.Written

namespace QueryPipeline

namespace Value

mutual

/-- The leaves of a nested object in their order, each with the keys on the way to it. -/
def leaves : Value → List (List String × Value)
  | .map entries => leavesOf entries
  | v => [([], v)]

def leavesOf : List (String × Value) → List (List String × Value)
  | [] => []
  | (key, v) :: rest => (leaves v).map (fun leaf => (key :: leaf.1, leaf.2)) ++ leavesOf rest

end

/-- A value that dotted notation can write: its objects are not empty and have distinct keys without
dots, and a marker that comes first in an object stands alone there, above a leaf. -/
inductive Dottable : Value → Prop where
  | leaf {v : Value} (h : ∀ entries, v ≠ .map entries) : Dottable v
  | map {entries : Entries Value} (nonempty : entries ≠ [])
    (distinct : (Entries.keys entries).Nodup) (undotted : ∀ e ∈ entries, '.' ∉ e.1.toList)
    (alone : ∀ e rest, entries = e :: rest → isMarker e.1 = true →
      rest = [] ∧ ∀ inner, e.2 ≠ .map inner)
    (values : ∀ e ∈ entries, e.2.Dottable) : Dottable (.map entries)

theorem leavesOf_eq (entries : Entries Value) :
    leavesOf entries =
      entries.flatMap fun e => (leaves e.2).map fun leaf => (e.1 :: leaf.1, leaf.2) := by
  induction entries with
  | nil => rw [leavesOf, List.flatMap_nil]
  | cons e rest ih => rw [leavesOf, ih, List.flatMap_cons]

theorem leaves_leaf {v : Value} (h : ∀ entries, v ≠ .map entries) : leaves v = [([], v)] := by
  cases v with
  | map entries => exact absurd rfl (h entries)
  | _ => rw [leaves]; simp

def dottedEntries (key : String) (v : Value) : Entries Value :=
  v.leaves.map fun leaf => (leaf.1.foldl Path.under key, leaf.2)

end Value

namespace Path

theorem under_ne_empty (parent child : String) : under parent child ≠ "" := by
  intro h
  have htext := congrArg String.toList h
  rw [toList_under] at htext
  exact List.append_ne_nil_of_right_ne_nil _ (List.cons_ne_nil _ _) htext

theorem toList_foldl_under (segments : List String) (key : String) :
    (segments.foldl under key).toList =
      key.toList ++ segments.flatMap fun segment => '.' :: segment.toList := by
  induction segments generalizing key with
  | nil => rw [List.foldl_nil, List.flatMap_nil, List.append_nil]
  | cons segment rest ih =>
    rw [List.foldl_cons, ih, toList_under, List.flatMap_cons, List.append_assoc]

theorem leading_append_segments {cs : List Char} (h : '.' ∉ cs) (segments : List String) :
    leading (cs ++ segments.flatMap fun segment => '.' :: segment.toList) = cs := by
  have hcs : leading cs = cs := List.takeWhile_eq_self_iff.mpr fun c hc =>
    decide_eq_true fun he => h (he ▸ hc)
  cases segments with
  | nil => rw [List.flatMap_nil, List.append_nil, hcs]
  | cons segment rest => rw [List.flatMap_cons, List.cons_append, leading_append_dot, hcs]

theorem flatMap_dot_injective {segments segments' : List String}
    (h : ∀ segment ∈ segments, '.' ∉ segment.toList)
    (h' : ∀ segment ∈ segments', '.' ∉ segment.toList)
    (heq : (segments.flatMap fun segment => '.' :: segment.toList) =
      segments'.flatMap fun segment => '.' :: segment.toList) : segments = segments' := by
  induction segments generalizing segments' with
  | nil =>
    cases segments' with
    | nil => rfl
    | cons segment' rest' => cases heq
  | cons segment rest ih =>
    cases segments' with
    | nil => cases heq
    | cons segment' rest' =>
      obtain ⟨hs, hrest⟩ := List.forall_mem_cons.mp h
      obtain ⟨hs', hrest'⟩ := List.forall_mem_cons.mp h'
      rw [List.flatMap_cons, List.flatMap_cons, List.cons_append, List.cons_append] at heq
      have htail := List.tail_eq_of_cons_eq heq
      have hsegment : segment.toList = segment'.toList := by
        rw [← leading_append_segments hs rest, htail, leading_append_segments hs']
      rw [hsegment] at htail
      rw [String.toList_inj.mp hsegment, ih hrest hrest' (List.append_cancel_left htail)]

theorem foldl_under_injective {key : String} {segments segments' : List String}
    (h : ∀ segment ∈ segments, '.' ∉ segment.toList)
    (h' : ∀ segment ∈ segments', '.' ∉ segment.toList)
    (heq : segments.foldl under key = segments'.foldl under key) : segments = segments' := by
  have htext := congrArg String.toList heq
  rw [toList_foldl_under, toList_foldl_under] at htext
  exact flatMap_dot_injective h h' (List.append_cancel_left htext)

end Path

namespace Value

variable {v : Value}

theorem Dottable.of_mem_leaves (h : v.Dottable) {leaf : List String × Value}
    (hleaf : leaf ∈ v.leaves) :
    (∀ entries, leaf.2 ≠ .map entries) ∧ ∀ segment ∈ leaf.1, '.' ∉ segment.toList := by
  induction h generalizing leaf with
  | leaf h =>
    rw [leaves_leaf h, List.mem_singleton] at hleaf
    rw [hleaf]
    exact ⟨h, nofun⟩
  | @map entries nonempty distinct undotted alone values ih =>
    rw [leaves, leavesOf_eq] at hleaf
    obtain ⟨e, he, hleaf⟩ := List.mem_flatMap.mp hleaf
    obtain ⟨inner, hinner, rfl⟩ := List.mem_map.mp hleaf
    obtain ⟨hvalue, hsegments⟩ := ih e he hinner
    exact ⟨hvalue, List.forall_mem_cons.mpr ⟨undotted e he, hsegments⟩⟩

theorem Dottable.nodup_leaves (h : v.Dottable) : (v.leaves.map Prod.fst).Nodup := by
  induction h with
  | leaf h =>
    rw [leaves_leaf h]
    exact List.nodup_singleton _
  | @map entries nonempty distinct undotted alone values ih =>
    rw [leaves, leavesOf_eq, List.map_flatMap, List.nodup_flatMap]
    constructor
    · intro e he
      rw [List.map_map]
      have hpaths := (ih e he).map (List.cons_injective (a := e.1))
      rwa [List.map_map] at hpaths
    · refine (List.pairwise_map.mp distinct).imp ?_
      -- The paths of two entries differ in their first segments.
      intro e f hne path hpe hpf
      simp only [List.map_map, List.mem_map, Function.comp_apply] at hpe hpf
      obtain ⟨_, _, rfl⟩ := hpe
      obtain ⟨_, _, hf⟩ := hpf
      exact hne (List.head_eq_of_cons_eq hf).symm

theorem Dottable.distinct_dottedEntries (h : v.Dottable) (key : String) :
    Entries.Distinct (v.dottedEntries key) := by
  refine List.pairwise_map.mpr ((List.pairwise_map.mp h.nodup_leaves).imp_of_mem ?_)
  intro leaf leaf' hleaf hleaf' hne
  rw [beq_eq_false_iff_ne]
  intro heq
  exact hne (Path.foldl_under_injective (h.of_mem_leaves hleaf).2 (h.of_mem_leaves hleaf').2 heq)

end Value

/-- A marker at the end of a path is read as the object in which it stands alone. -/
theorem rewrap_under {key marker : String} {v : Value} (hkey : key ≠ "")
    (hmarker : isMarker marker = true) (hdot : '.' ∉ marker.toList)
    (hv : ∀ entries, v ≠ .map entries) :
    rewrap (Path.under key marker) v = rewrap key (.map [(marker, v)]) := by
  unfold rewrap
  split
  · exact absurd rfl (hv _)
  · rw [Path.splitLast?_under hkey hdot]
    exact if_pos hmarker

theorem Value.Dottable.map_rewrap_flatten {v : Value} (h : v.Dottable) {key : String}
    (hkey : key ≠ "") :
    (flatten key v).map (fun leaf => rewrap leaf.1 leaf.2) =
      (v.dottedEntries key).map fun leaf => rewrap leaf.1 leaf.2 := by
  induction h generalizing key with
  | leaf h => rw [flatten_leaf h, dottedEntries, leaves_leaf h]; rfl
  | @map entries nonempty distinct undotted alone values ih =>
    cases entries with
    | nil => exact absurd rfl nonempty
    | cons e rest =>
      rw [flatten_cons]
      split
      · rename_i hmarker
        obtain ⟨rfl, hleaf⟩ := alone e rest rfl hmarker
        have hdot := undotted e List.mem_cons_self
        rw [dottedEntries, leaves, leavesOf, leavesOf, List.append_nil, leaves_leaf hleaf]
        exact congrArg (fun x => [x]) (rewrap_under hkey hmarker hdot hleaf).symm
      · rw [flattenEntries_eq, dottedEntries, leaves, leavesOf_eq, List.map_flatMap, List.map_map,
          List.map_flatMap]
        apply List.flatMap_congr
        intro f hf
        rw [ih f hf (Path.under_ne_empty key f.1), dottedEntries, List.map_map, List.map_map]
        rfl

namespace QueryObject

theorem foldl_under_not_control {key : String} (hcontrol : key ∉ controlKeys)
    (segments : List String) : segments.foldl Path.under key ∉ controlKeys := by
  have hdots : ∀ name ∈ controlKeys, '.' ∉ name.toList := by decide
  cases segments with
  | nil => exact hcontrol
  | cons segment rest =>
    intro hmem
    apply hdots _ hmem
    rw [Path.toList_foldl_under, List.flatMap_cons]
    simp

theorem parameters_of_leaves {entries : Entries Value}
    (h : ∀ e ∈ entries, e.1 ∉ controlKeys ∧ ∀ inner, e.2 ≠ .map inner) :
    parameters (.ofEntries entries) = entries.map fun e => .field e.1 e.2 := by
  induction entries with
  | nil => rfl
  | cons e rest ih =>
    obtain ⟨⟨hcontrol, hleaf⟩, hrest⟩ := List.forall_mem_cons.mp h
    have hfirst : entryParameters (.text e.1) e.2 = [.field e.1 e.2] := by
      rw [entryParameters, if_neg fun hc => hcontrol (List.contains_iff_mem.mp hc),
        flatten_leaf hleaf]
      rfl
    have hsplit : parameters (.ofEntries (e :: rest)) =
        entryParameters (.text e.1) e.2 ++ parameters (.ofEntries rest) := rfl
    rw [hsplit, hfirst, ih hrest]
    rfl

theorem parameters_nested {key : String} (hcontrol : key ∉ controlKeys) (v : Value) :
    parameters (.ofEntries [(key, v)]) =
      (flatten key v).map fun leaf => .field leaf.1 leaf.2 := by
  have hentry : parameters (.ofEntries [(key, v)]) = entryParameters (.text key) v :=
    List.append_nil _
  rw [hentry, entryParameters, if_neg fun hc => hcontrol (List.contains_iff_mem.mp hc)]

theorem parameters_dotted {key : String} (hcontrol : key ∉ controlKeys) {v : Value}
    (h : v.Dottable) :
    parameters (.ofEntries (v.dottedEntries key)) =
      (v.dottedEntries key).map fun leaf => .field leaf.1 leaf.2 := by
  apply parameters_of_leaves
  intro e he
  obtain ⟨leaf, hleaf, rfl⟩ := List.mem_map.mp he
  exact ⟨foldl_under_not_control hcontrol leaf.1, (h.of_mem_leaves hleaf).1⟩

/-- A path and a value are read by what they are rewrapped to. -/
theorem mapM_read_congr (schema : Schema) {leaves leaves' : List (String × Value)}
    (h : (leaves.map fun leaf => rewrap leaf.1 leaf.2) =
      leaves'.map fun leaf => rewrap leaf.1 leaf.2) :
    (leaves.map fun leaf => Parameter.field leaf.1 leaf.2).mapM (Parameter.read schema) =
      (leaves'.map fun leaf => Parameter.field leaf.1 leaf.2).mapM (Parameter.read schema) := by
  induction leaves generalizing leaves' with
  | nil => rw [List.map_eq_nil_iff.mp h.symm]
  | cons leaf rest ih =>
    cases leaves' with
    | nil => cases h
    | cons leaf' rest' =>
      have hrewrap : rewrap leaf.1 leaf.2 = rewrap leaf'.1 leaf'.2 := List.head_eq_of_cons_eq h
      have hread : classify schema leaf.1 leaf.2 = classify schema leaf'.1 leaf'.2 := by
        unfold classify
        rw [hrewrap]
      rw [List.map_cons, List.map_cons, List.mapM_cons, List.mapM_cons, Parameter.read,
        Parameter.read, hread, ih (List.tail_eq_of_cons_eq h)]

/-- A nested object under a key is parsed as the flat object of its leaves under dotted keys: to the
same filters and joins in the same order, or to the same fault. -/
theorem parse_dotted (schema : Schema) {key : String} (hkey : key ≠ "")
    (hcontrol : key ∉ controlKeys) {entries : Entries Value}
    (h : (Value.map entries).Dottable) :
    parse schema (.ofEntries [(key, .map entries)]) =
      parse schema (.ofEntries (Entries.ofList ((Value.map entries).dottedEntries key))) := by
  have hflat : Entries.ofList ((Value.map entries).dottedEntries key) =
      (Value.map entries).dottedEntries key :=
    Entries.update_of_distinct (h.distinct_dottedEntries key)
  rw [hflat, parse, parse, parameters_nested hcontrol, parameters_dotted hcontrol h,
    mapM_read_congr schema (h.map_rewrap_flatten hkey)]

theorem parse_dotted_variant :
    let schema : Schema :=
      { origin := .mapping, modelName := none,
        fields := [("variant.color", { type := .string }), ("variant.size", { type := .number }),
          ("variant.maker", { type := .relation, target := .text "Maker" })],
        translatable := [], collection := none }
    let entries : Entries Value :=
      [("color", .map [("s", .text "re")]),
        ("size", .map [("gt", .text "5"), ("in", .text "1;2")]),
        ("maker->city", .map [("p", .list [.text "name"])])]
    let flat : Entries Value :=
      [("variant.color.s", .text "re"), ("variant.size.gt", .text "5"),
        ("variant.size.in", .text "1;2"), ("variant.maker->city.p", .list [.text "name"])]
    let q : QueryObject :=
      { control := []
        filters := [.regex "variant.color" (.text "re"),
          .operator "variant.size" "$gt" (.text "5"),
          .operator "variant.size" "$in" (.list [.text "1", .text "2"])]
        joins := [.join "variant.maker->city" (.text "name")] }
    "variant" ≠ "" ∧ "variant" ∉ controlKeys ∧ (Value.map entries).Dottable ∧
      Entries.ofList ((Value.map entries).dottedEntries "variant") = flat ∧
      parse schema (.ofEntries flat) = .ok q ∧
      parse schema (.ofEntries [("variant", .map entries)]) =
        parse schema
          (.ofEntries (Entries.ofList ((Value.map entries).dottedEntries "variant"))) := by
  intro schema entries flat q
  have hkey : "variant" ≠ "" := by decide
  have hcontrol : "variant" ∉ controlKeys := by decide
  have hscalar (s : Scalar) : (Value.scalar s).Dottable := .leaf nofun
  have hmarked (marker : String) (v : Value) (hdot : '.' ∉ marker.toList)
      (hv : ∀ inner, v ≠ .map inner) : (Value.map [(marker, v)]).Dottable := by
    refine .map (List.cons_ne_nil _ _) (List.nodup_singleton _) ?_ ?_ ?_
    · exact List.forall_mem_singleton.mpr hdot
    · intro e rest he _
      cases he
      exact ⟨rfl, hv⟩
    · exact List.forall_mem_singleton.mpr (.leaf hv)
  have hsize : (Value.map [("gt", .text "5"), ("in", .text "1;2")]).Dottable := by
    refine .map (List.cons_ne_nil _ _) (by decide) (by simp) ?_ (by simp [hscalar])
    intro e rest he hm
    cases he
    cases hm
  have h : (Value.map entries).Dottable := by
    refine .map (List.cons_ne_nil _ _) (by decide) (by simp [entries]) ?_ ?_
    · intro e rest he hm
      rw [← List.head_eq_of_cons_eq he] at hm
      cases hm
    · simp [entries, hsize, hmarked "s" (.text "re") (by decide) nofun,
        hmarked "p" (.list [.text "name"]) (by decide) nofun]
  exact ⟨hkey, hcontrol, h, rfl, rfl, parse_dotted schema hkey hcontrol h⟩

end QueryObject

end QueryPipeline
