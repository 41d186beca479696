import QueryPipeline.Proofs.Path
import QueryPipeline.Proofs.Query.Written

namespace QueryPipeline

section Classify

variable {schema : Schema} {path : String}

/-- No path that the schema names begins like the field of `path`. -/
def Schema.Misses (schema : Schema) (path : String) : Prop :=
  ∀ named, schema.Names named →
    (Path.segments named).head? ≠ (Path.segments (Path.dotted path)).head?

theorem Schema.Misses.of_leading {other : String} (h : schema.Misses path)
    (hleading : Path.leading (Path.dotted other).toList = Path.leading (Path.dotted path).toList) :
    schema.Misses other := by
  intro named hnamed
  rw [Path.head?_segments (Path.dotted other), hleading, ← Path.head?_segments]
  exact h named hnamed

theorem Schema.Misses.hasField {field : String} (h : schema.Misses path)
    (hleading : Path.leading field.toList = Path.leading (Path.dotted path).toList) :
    schema.hasField field = false := by
  rw [← Bool.not_eq_true]
  intro hknown
  obtain ⟨named, hnamed, hn⟩ := exists_names_of_hasField hknown
  apply h named hnamed
  rw [Path.head?_segments, Path.head?_segments, hn, hleading]

theorem Schema.Misses.rewrap (h : schema.Misses path) (v : Value) :
    schema.Misses (rewrap path v).1 := by
  unfold QueryPipeline.rewrap
  split
  · exact h
  · split
    · rename_i hsplit
      split
      · apply h.of_leading
        rw [Path.splitLast?_eq_some hsplit, Path.leading_dotted_under]
      · exact h
    · exact h

theorem operatorOf?_under {field suffix op : String}
    (h : operatorOf? path = some (field, suffix, op)) : path = Path.under field suffix := by
  unfold operatorOf? at h
  split at h
  · rename_i hsplit
    obtain ⟨_, _, he⟩ := Option.map_eq_some_iff.mp h
    cases he
    exact Path.splitLast?_eq_some hsplit
  · cases h

theorem readJoin_unknown (h : schema.Misses path) (payload : Value) :
    readJoin schema path payload = .ok (.unknown (Path.root path)) := by
  rw [readJoin, h.hasField (Path.leading_root path)]
  rfl

theorem readOperator_unknown {field : String} (h : schema.hasField field = false)
    (suffix op : String) (v : Value) :
    readOperator schema field suffix op v = .ok (.unknown field) := by
  unfold readOperator
  rw [h]
  rfl

theorem readPlain_unknown {field : String} (h : schema.hasField field = false) (v : Value) :
    readPlain schema field v = .ok (.unknown field) := by
  unfold readPlain
  rw [h]
  rfl

/-- The field is looked up before anything is asked of the value. -/
theorem classify_unknown (h : schema.Misses path) (v : Value) :
    ∃ field, classify schema path v = .ok (.unknown field) := by
  have hpath := h.rewrap v
  unfold classify
  generalize rewrap path v = rewrapped at hpath
  obtain ⟨path, v⟩ := rewrapped
  dsimp only at hpath ⊢
  split
  · exact ⟨_, readJoin_unknown hpath _⟩
  · split
    · rename_i field suffix op ho
      refine ⟨_, readOperator_unknown (hpath.hasField ?_) suffix op v⟩
      rw [operatorOf?_under ho, Path.leading_dotted_under]
    · exact ⟨_, readPlain_unknown (hpath.hasField rfl) v⟩

end Classify

theorem leading_of_mem_flatten {key : String} {v : Value} {leaf : String × Value}
    (h : leaf ∈ flatten key v) :
    Path.leading (Path.dotted leaf.1).toList = Path.leading (Path.dotted key).toList := by
  induction key, v using flatten.induct (motive_2 := fun key entries =>
    leaf ∈ flattenEntries key entries →
      Path.leading (Path.dotted leaf.1).toList = Path.leading (Path.dotted key).toList) with
  | case1 key =>
    rw [flatten] at h
    cases h
  | case2 key first v rest hmarker =>
    rw [flatten, if_pos hmarker, List.mem_singleton] at h
    rw [h]
  | case3 key first v rest hmarker ihv ihrest =>
    rw [flatten, if_neg hmarker] at h
    rcases List.mem_append.mp h with h | h
    · rw [ihv h, Path.leading_dotted_under]
    · exact ihrest h
  | case4 key v hnil hcons =>
    rw [flatten, List.mem_singleton] at h
    · rw [h]
    · exact hnil
    · exact hcons
  | case5 key =>
    rename_i h
    rw [flattenEntries] at h
    cases h
  | case6 key k v rest ihv ihrest =>
    rename_i h
    rw [flattenEntries] at h
    rcases List.mem_append.mp h with h | h
    · rw [ihv h, Path.leading_dotted_under]
    · exact ihrest h

namespace QueryObject

variable {schema : Schema}

theorem entryParameters_unknown {key : String} (hcontrol : key ∉ controlKeys)
    (h : schema.Misses key) {v : Value} {p : Parameter} (hp : p ∈ entryParameters (.text key) v) :
    ∃ field, p.read schema = .ok (.unknown field) := by
  rw [entryParameters, if_neg fun hc => hcontrol (List.contains_iff_mem.mp hc)] at hp
  obtain ⟨leaf, hleaf, rfl⟩ := List.mem_map.mp hp
  exact classify_unknown (h.of_leading (leading_of_mem_flatten hleaf)) leaf.2

theorem mapM_unknown {ps : List Parameter}
    (h : ∀ p ∈ ps, ∃ field, p.read schema = .ok (.unknown field)) :
    ∃ fields : List String, ps.mapM (Parameter.read schema) = .ok (fields.map .unknown) := by
  induction ps with
  | nil => exact ⟨[], rfl⟩
  | cons p ps ih =>
    obtain ⟨hp, hps⟩ := List.forall_mem_cons.mp h
    obtain ⟨field, hread⟩ := hp
    obtain ⟨fields, hreads⟩ := ih hps
    rw [List.mapM_cons, hread, hreads]
    exact ⟨field :: fields, rfl⟩

theorem ofReadings_unknown (before after : List Reading) (fields : List String) :
    ofReadings (before ++ (fields.map .unknown ++ after)) = ofReadings (before ++ after) := by
  have hnone {α : Type} (f : Reading → Option α) (hf : ∀ field, f (.unknown field) = none) :
      (fields.map .unknown).filterMap f = [] := by
    rw [List.filterMap_map]
    exact List.filterMap_eq_nil_iff.mpr fun field _ => hf field
  simp only [ofReadings, List.filterMap_append, hnone Reading.control? fun _ => rfl,
    hnone Reading.filter? fun _ => rfl, hnone Reading.join? fun _ => rfl, List.nil_append]

/-- A field that the schema does not know has no effect, wherever it stands in a query and whatever
its value is: the same parameters are parsed without it, or the same fault comes. -/
theorem parse_insert_unknown (before after : Dict) {key : String} (hcontrol : key ∉ controlKeys)
    (h : schema.Misses key) (v : Value) :
    parse schema (before ++ (.text key, v) :: after) = parse schema (before ++ after) := by
  obtain ⟨fields, hfields⟩ := mapM_unknown fun p hp =>
    entryParameters_unknown (v := v) hcontrol h hp
  have hinserted : parameters (before ++ (.text key, v) :: after) =
      parameters before ++ (entryParameters (.text key) v ++ parameters after) := by
    rw [parameters, List.flatMap_append, List.flatMap_cons]
    rfl
  have hplain : parameters (before ++ after) = parameters before ++ parameters after := by
    rw [parameters, List.flatMap_append]
    rfl
  rw [parse, parse, hinserted, hplain, List.mapM_append, List.mapM_append, List.mapM_append,
    hfields]
  cases (parameters before).mapM (Parameter.read schema) with
  | error f => rfl
  | ok first =>
    cases (parameters after).mapM (Parameter.read schema) with
    | error f => rfl
    | ok last => exact congrArg Except.ok (ofReadings_unknown first last fields)

theorem parse_insert_unknown_cost :
    let schema : Schema :=
      { origin := .mapping, modelName := none,
        fields := [("price", { type := .number }), ("variant.color", { type := .string })],
        translatable := [.text "title"], collection := none }
    let before : Dict := [("price", .map [("gt", .text "5")])]
    let after : Dict :=
      [("page", .text "2"), ("variant", .map [("color", .map [("s", .text "re")])])]
    let v : Value := .map
      [("gt", .map [("a", .null)]), ("b", .map [("p", .list [.int 1])]), ("s", .int 5)]
    let q : QueryObject :=
      { control := [("page", .text "2")]
        filters := [.operator "price" "$gt" (.text "5"), .regex "variant.color" (.text "re")]
        joins := [] }
    "cost->price" ∉ controlKeys ∧ schema.Misses "cost->price" ∧
      parse schema (before ++ after) = .ok q ∧
      parse schema (before ++ (.text "cost->price", v) :: after) =
        parse schema (before ++ after) := by
  intro schema before after v q
  have hcontrol : "cost->price" ∉ controlKeys := by decide
  have h : schema.Misses "cost->price" := by
    intro named hnamed
    rcases hnamed with hnamed | hnamed
    · rcases List.mem_cons.mp hnamed with rfl | hnamed
      · decide
      · rw [List.mem_singleton.mp hnamed]
        decide
    · rw [Scalar.text.inj (List.mem_singleton.mp hnamed)]
      decide
  exact ⟨hcontrol, h, rfl, parse_insert_unknown before after hcontrol h v⟩

end QueryObject

end QueryPipeline
