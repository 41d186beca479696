import QueryPipeline.Proofs.Entries
import QueryPipeline.Proofs.Outcome
import QueryPipeline.Query.Parameters
import QueryPipeline.Query.QueryString

namespace QueryPipeline

/-- A text, or a list of texts. -/
inductive Value.Spelled : Value → Prop where
  | text (s : String) : Spelled (.text s)
  | texts (items : List String) : Spelled (.list (items.map Value.text))

inductive Value.Written : Value → Prop where
  | spelled {v : Value} (h : v.Spelled) : Written v
  | map {entries : Entries Value} (h : ∀ e ∈ entries, e.2.Written) : Written (.map entries)

/-- What a filter can be: it is on a field that the schema knows, its operator is one of those that
have a suffix, and its value is text. -/
inductive Expression.Filters (schema : Schema) : Expression → Prop where
  | equals {field : String} {v : Value} (known : schema.hasField field = true)
    (spelled : v.Spelled) : Filters schema (.equals field v)
  | operator {field suffix op : String} {v : Value} (known : schema.hasField field = true)
    (listed : (suffix, op) ∈ operatorSuffixes) (spelled : v.Spelled) :
    Filters schema (.operator field op v)
  | regex {field : String} (known : schema.hasField field = true) (s : String) :
    Filters schema (.regex field (.text s))

inductive Expression.Joins : Expression → Prop where
  | fields (key s : String) : Joins (.join key (.text s))
  | object (key : String) (entries : Entries Value) : Joins (.join key (.map entries))

inductive Reads (schema : Schema) : Except Fault Reading → Prop where
  | control (key s : String) : Reads schema (.ok (.control key (.text s)))
  | filter {e : Expression} (h : e.Filters schema) : Reads schema (.ok (.filter e))
  | join {e : Expression} (h : e.Joins) : Reads schema (.ok (.join e))
  | unknown (field : String) : Reads schema (.ok (.unknown field))
  | refused (cause : QueryFault) : Reads schema (.error (.invalidQuery cause))

structure QueryObject.Readable (schema : Schema) (q : QueryObject) : Prop where
  controls : ∀ e ∈ q.control, ∃ s, e.2 = .text s
  filters : ∀ e ∈ q.filters, e.Filters schema
  joins : ∀ e ∈ q.joins, e.Joins

theorem Expression.Filters.known {schema : Schema} {e : Expression} (h : e.Filters schema) :
    schema.hasField e.field = true := by
  cases h <;> assumption

theorem flattenEntries_eq (key : String) (entries : Entries Value) :
    flattenEntries key entries = entries.flatMap fun e => flatten (Path.under key e.1) e.2 := by
  induction entries with
  | nil => rw [flattenEntries, List.flatMap_nil]
  | cons e rest ih => rw [flattenEntries, ih, List.flatMap_cons]

theorem flatten_leaf {v : Value} (h : ∀ entries, v ≠ .map entries) (key : String) :
    flatten key v = [(key, v)] := by
  cases v with
  | map entries => exact absurd rfl (h entries)
  | _ => rw [flatten] <;> simp

theorem flatten_cons (key : String) (e : String × Value) (rest : Entries Value) :
    flatten key (.map (e :: rest)) =
      if isMarker e.1 then [(key, .map (e :: rest))] else flattenEntries key (e :: rest) := by
  rw [flatten, flattenEntries]

namespace Value

theorem Written.get? {entries : Entries Value} (h : ∀ e ∈ entries, e.2.Written) {key : String}
    {v : Value} (hv : Entries.get? entries key = some v) : v.Written := by
  obtain ⟨e, he, _, rfl⟩ := Entries.mem_of_get?_eq_some hv
  exact h e he

theorem Written.entries {entries : Entries Value} (h : (Value.map entries).Written) :
    ∀ e ∈ entries, e.2.Written := by
  cases h with
  | spelled h => cases h
  | map h => exact h

theorem Written.nil : (Value.map []).Written :=
  .map fun _ h => nomatch h

theorem Written.cons {key : String} {v : Value} {rest : Entries Value} (hv : v.Written)
    (hrest : (Value.map rest).Written) : (Value.map ((key, v) :: rest)).Written :=
  .map (List.forall_mem_cons.mpr ⟨hv, hrest.entries⟩)

theorem Spelled.ne_map {v : Value} (h : v.Spelled) (entries : Entries Value) :
    v ≠ .map entries := by
  cases h <;> simp

theorem Written.of_mem_flatten {v : Value} (h : v.Written) (key : String) {leaf : String × Value}
    (hleaf : leaf ∈ flatten key v) : leaf.2.Written := by
  induction h generalizing key with
  | spelled h =>
    rw [flatten_leaf h.ne_map, List.mem_singleton] at hleaf
    rw [hleaf]
    exact .spelled h
  | @map entries h ih =>
    cases entries with
    | nil =>
      rw [flatten] at hleaf
      cases hleaf
    | cons e rest =>
      rw [flatten_cons] at hleaf
      split at hleaf
      · rw [List.mem_singleton.mp hleaf]
        exact .map h
      · rw [flattenEntries_eq, List.mem_flatMap] at hleaf
        obtain ⟨e, he, hleaf⟩ := hleaf
        exact ih e he _ hleaf

theorem listOf_texts {v : Value} (h : ∀ items, v ≠ .list items) :
    ∃ texts : List String, listOf v = .list (texts.map .text) := by
  refine ⟨(Text.splitOn ';' v.plain.toList).map String.ofList, ?_⟩
  rw [List.map_map]
  unfold listOf
  split
  · exact absurd rfl (h _)
  · rfl

theorem Spelled.listOf {v : Value} (h : v.Spelled) : (listOf v).Spelled := by
  cases h with
  | text s =>
    obtain ⟨texts, ht⟩ := listOf_texts (v := .text s) fun _ he => nomatch he
    rw [ht]
    exact .texts texts
  | texts items => exact .texts items

end Value

section Reading

variable {schema : Schema} {value : Value}

theorem readControl_reads (h : value.Written) (key : String) :
    Reads schema ((readControl key value).mapError .invalidQuery) := by
  unfold readControl
  split
  · exact .refused _
  · cases h with
    | spelled h =>
      cases h with
      | text s => exact .control key s
      | texts items => exact .refused _
    | map h => exact .refused _

theorem payloadOf_joins (h : value.Written) (path : String) :
    ∃ payload, payloadOf value = .ok payload ∧ (Expression.join path payload).Joins := by
  have horElse {v : Value} (hv : (Expression.join path v).Joins) :
      (Expression.join path (v.orElse (.text "*"))).Joins := by
    rw [Value.orElse]
    split
    · exact hv
    · exact .fields path "*"
  cases h with
  | spelled h =>
    cases h with
    | text s => exact ⟨_, rfl, horElse (.fields path s)⟩
    | texts items =>
      refine ⟨_, ?_, horElse (.fields path (String.intercalate ";" items))⟩
      refine Outcome.bind_eq_ok_iff.mpr ⟨items, Outcome.mapM_eq_ok_iff.mpr ?_, rfl⟩
      exact List.forall₂_map_left_iff.mpr (List.forall₂_same.mpr fun _ _ => rfl)
  | @map entries h => exact ⟨_, rfl, horElse (.object path entries)⟩

theorem readJoin_reads (h : value.Written) (path : String) :
    Reads schema (readJoin schema path value) := by
  unfold readJoin
  split
  · obtain ⟨payload, hp, hj⟩ := payloadOf_joins h path
    rw [hp]
    exact .join hj
  · exact .unknown _

theorem readOperator_reads (h : value.Written) (field : String) {suffix op : String}
    (listed : (suffix, op) ∈ operatorSuffixes) :
    Reads schema (readOperator schema field suffix op value) := by
  unfold readOperator
  split
  · rename_i known
    cases h with
    | spelled h =>
      have hv : (if listOperators.contains op then listOf value else value).Spelled := by
        split
        · exact h.listOf
        · exact h
      cases h with
      | text s => exact .filter (.operator known listed hv)
      | texts items => exact .filter (.operator known listed hv)
    | map h => exact .refused _
  · exact .unknown _

theorem readPlain_reads (h : value.Written) (field : String) :
    Reads schema (readPlain schema field value) := by
  unfold readPlain
  split
  · rename_i known
    cases h with
    | spelled h =>
      cases h with
      | text s => exact .filter (.equals known (.text s))
      | texts items => exact .filter (.equals known (.texts items))
    | map h =>
      dsimp only
      split
      · exact .refused _
      · exact .filter (.regex known _)
      · exact .refused _
  · exact .unknown _

theorem rewrap_written (h : value.Written) (path : String) : (rewrap path value).2.Written := by
  unfold rewrap
  split
  · exact h
  · split
    · split
      · exact .map (by simpa using h)
      · exact h
    · exact h

theorem marked?_written (h : value.Written) {marker : String} {under : Value}
    (hu : marked? marker value = some under) : under.Written := by
  unfold marked? at hu
  split at hu
  · exact Value.Written.get? h.entries hu
  · cases hu

theorem operatorOf?_listed {path field suffix op : String}
    (h : operatorOf? path = some (field, suffix, op)) : (suffix, op) ∈ operatorSuffixes := by
  unfold operatorOf? at h
  split at h
  · obtain ⟨op', hop, he⟩ := Option.map_eq_some_iff.mp h
    cases he
    obtain ⟨e, he, hk, rfl⟩ := Entries.mem_of_get?_eq_some hop
    rw [← beq_iff_eq.mp hk]
    exact he
  · cases h

theorem classify_reads (h : value.Written) (path : String) :
    Reads schema (classify schema path value) := by
  unfold classify
  have hw := rewrap_written h path
  generalize rewrap path value = rewrapped at hw
  obtain ⟨path, value⟩ := rewrapped
  dsimp only
  split
  · rename_i payload hp
    exact readJoin_reads (marked?_written hw hp) path
  · split
    · rename_i ho
      exact readOperator_reads hw _ (operatorOf?_listed ho)
    · exact readPlain_reads hw _

theorem entryParameters_reads (h : value.Written) (key : String) {p : Parameter}
    (hp : p ∈ entryParameters (.text key) value) : Reads schema (p.read schema) := by
  unfold entryParameters at hp
  dsimp only at hp
  split at hp
  · rw [List.mem_singleton.mp hp]
    exact readControl_reads h key
  · obtain ⟨leaf, hleaf, rfl⟩ := List.mem_map.mp hp
    exact classify_reads (h.of_mem_flatten key hleaf) leaf.1

end Reading

namespace QueryObject

variable {schema : Schema} {entries : Entries Value}

theorem parameters_reads (h : ∀ e ∈ entries, e.2.Written) {p : Parameter}
    (hp : p ∈ parameters (.ofEntries entries)) : Reads schema (p.read schema) := by
  obtain ⟨e, he, hp⟩ := List.mem_flatMap.mp hp
  obtain ⟨e', he', rfl⟩ := List.mem_map.mp he
  exact entryParameters_reads (h e' he') e'.1 hp

theorem parse_readable (h : ∀ e ∈ entries, e.2.Written) {q : QueryObject}
    (hq : parse schema (.ofEntries entries) = .ok q) : q.Readable schema := by
  obtain ⟨readings, hr, hq⟩ := Outcome.bind_eq_ok_iff.mp hq
  cases hq
  have hreads {reading : Reading} (hm : reading ∈ readings) : Reads schema (.ok reading) := by
    obtain ⟨p, hp, he⟩ := Outcome.mem_of_mapM_eq_ok hr hm
    rw [← he]
    exact parameters_reads h hp
  constructor
  · intro e he
    obtain ⟨reading, hm, he⟩ := List.mem_filterMap.mp he
    cases hreads hm with
    | control key s =>
      cases he
      exact ⟨s, rfl⟩
    | _ => cases he
  · intro e he
    obtain ⟨reading, hm, he⟩ := List.mem_filterMap.mp he
    cases hreads hm with
    | filter hf =>
      cases he
      exact hf
    | _ => cases he
  · intro e he
    obtain ⟨reading, hm, he⟩ := List.mem_filterMap.mp he
    cases hreads hm with
    | join hj =>
      cases he
      exact hj
    | _ => cases he

theorem parse_refused (h : ∀ e ∈ entries, e.2.Written) {f : Fault}
    (hf : parse schema (.ofEntries entries) = .error f) : ∃ cause, f = .invalidQuery cause := by
  have hfault : Outcome.fault? (parse schema (.ofEntries entries)) = some f :=
    Outcome.fault?_eq_some_iff.mpr hf
  rw [parse, Outcome.fault?_bind_pure, Outcome.fault?_mapM] at hfault
  obtain ⟨p, hp, hread⟩ := List.exists_of_findSome?_eq_some hfault
  have hreads : Reads schema (p.read schema) := parameters_reads h hp
  rw [Outcome.fault?_eq_some_iff.mp hread] at hreads
  cases hreads with
  | refused cause => exact ⟨cause, rfl⟩

end QueryObject

namespace QueryString

theorem mapUnder_written {entries : Entries Value} (h : (Value.map entries).Written)
    (segment : String) : (Value.map (mapUnder entries segment)).Written := by
  unfold mapUnder
  split
  · rename_i inner hg
    exact Value.Written.get? h.entries hg
  · exact .nil

theorem put_written {entries : Entries Value} {v : Value} (h : (Value.map entries).Written)
    (hv : v.Written) (key : String) : (Value.map (Entries.put entries key v)).Written := by
  refine .map ?_
  intro e he
  rcases Entries.mem_put he with he | he
  · exact h.entries e he
  · rw [he]
    exact hv

theorem place_written (path : List String) (text : String) {entries : Entries Value}
    (h : (Value.map entries).Written) : (Value.map (place path text entries)).Written := by
  induction path, text, entries using place.induct with
  | case1 text entries => exact h
  | case2 segment text entries => exact put_written h (.spelled (.text text)) segment
  | case3 segment rest text entries hrest ih =>
    rw [place]
    · exact put_written h (ih (mapUnder_written h segment)) segment
    · exact hrest

theorem foldl_place_written (pairs : List (List String × String)) {entries : Entries Value}
    (h : (Value.map entries).Written) :
    (Value.map (pairs.foldl (fun placed pair => place pair.1 pair.2 placed) entries)).Written := by
  induction pairs generalizing entries with
  | nil => exact h
  | cons pair rest ih => exact ih (place_written pair.1 pair.2 h)

/-- Whatever a query string says, it is text in maps. -/
theorem parse_written (s : String) : (Value.map (parse s)).Written :=
  foldl_place_written (pairs s) .nil

end QueryString

end QueryPipeline
