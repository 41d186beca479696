import QueryPipeline.Proofs.Clause.Population
import QueryPipeline.Proofs.Query.DottedNotation
import QueryPipeline.Proofs.Query.Overwriting
import QueryPipeline.Proofs.Query.ParameterOrder

namespace QueryPipeline

namespace Path

theorem arrowsToDots_of_notMem {cs : List Char} (h : '.' ∉ arrowsToDots cs) :
    arrowsToDots cs = cs := by
  induction cs using arrowsToDots.induct with
  | case1 rest ih => exact absurd List.mem_cons_self h
  | case2 c rest hc ih =>
    rw [arrowsToDots] at h ⊢
    · rw [ih fun hmem => h (List.mem_cons_of_mem _ hmem)]
    · exact hc
    · exact hc
  | case3 => rfl

def Plain (key : String) : Prop :=
  '.' ∉ (dotted key).toList

instance : DecidablePred Plain :=
  fun key => inferInstanceAs (Decidable ('.' ∉ (dotted key).toList))

theorem Plain.dotted_eq {key : String} (h : Plain key) : dotted key = key := by
  rw [Plain, dotted, String.toList_ofList] at h
  rw [dotted, arrowsToDots_of_notMem h, String.ofList_toList]

theorem Plain.notMem {key : String} (h : Plain key) : '.' ∉ key.toList := by
  rw [← h.dotted_eq]
  exact h

theorem dotted_foldl_under {segments : List String} (h : ∀ segment ∈ segments, Plain segment)
    (key : String) : dotted (segments.foldl under key) = segments.foldl under (dotted key) := by
  induction segments generalizing key with
  | nil => rfl
  | cons segment rest ih =>
    obtain ⟨hsegment, hrest⟩ := List.forall_mem_cons.mp h
    rw [List.foldl_cons, List.foldl_cons, ih hrest, dotted_under, hsegment.dotted_eq]

theorem foldl_under_inj {key key' : String} {segments segments' : List String}
    (hkey : '.' ∉ key.toList) (hkey' : '.' ∉ key'.toList)
    (h : ∀ segment ∈ segments, '.' ∉ segment.toList)
    (h' : ∀ segment ∈ segments', '.' ∉ segment.toList)
    (heq : segments.foldl under key = segments'.foldl under key') :
    key = key' ∧ segments = segments' := by
  have htext := congrArg (fun path => leading path.toList) heq
  rw [toList_foldl_under, toList_foldl_under, leading_append_segments hkey,
    leading_append_segments hkey'] at htext
  obtain rfl := String.toList_inj.mp htext
  exact ⟨rfl, foldl_under_injective h h' heq⟩

theorem under_left_inj {parent parent' child : String}
    (h : under parent child = under parent' child) : parent = parent' := by
  have htext := congrArg String.toList h
  rw [toList_under, toList_under, List.append_left_inj] at htext
  exact String.toList_inj.mp htext

end Path

namespace Value

/-- Every object has the property, down to the leaves. -/
inductive Throughout (p : Entries Value → Prop) : Value → Prop where
  | leaf {v : Value} (h : ∀ entries, v ≠ .map entries) : Throughout p v
  | map {entries : Entries Value} (h : p entries) (values : ∀ e ∈ entries, e.2.Throughout p) :
    Throughout p (.map entries)

mutual

/-- The parts of a value that are kept whole, each with the keys on the way to it. -/
def parts : Value → List (List String × Value)
  | .map [] => []
  | .map ((first, v) :: rest) =>
    if isMarker first then [([], .map ((first, v) :: rest))]
    else (parts v).map (fun part => (first :: part.1, part.2)) ++ partsOf rest
  | v => [([], v)]

def partsOf : List (String × Value) → List (List String × Value)
  | [] => []
  | (key, v) :: rest => (parts v).map (fun part => (key :: part.1, part.2)) ++ partsOf rest

end

theorem partsOf_eq (entries : Entries Value) :
    partsOf entries =
      entries.flatMap fun e => (parts e.2).map fun part => (e.1 :: part.1, part.2) := by
  induction entries with
  | nil => rw [partsOf, List.flatMap_nil]
  | cons e rest ih => rw [partsOf, ih, List.flatMap_cons]

theorem parts_whole {v : Value} (h : v.isWhole = true) : parts v = [([], v)] := by
  cases v with
  | map entries =>
    cases entries with
    | nil => cases h
    | cons e rest =>
      rw [parts, if_pos]
      exact h
  | _ => rw [parts] <;> simp

theorem parts_opened {entries : Entries Value} (h : (Value.map entries).isWhole = false) :
    parts (.map entries) =
      entries.flatMap fun e => (parts e.2).map fun part => (e.1 :: part.1, part.2) := by
  cases entries with
  | nil => rw [parts, List.flatMap_nil]
  | cons e rest =>
    rw [parts, if_neg, partsOf_eq, List.flatMap_cons]
    exact Bool.eq_false_iff.mp h

variable {p : Entries Value → Prop} {v : Value}

theorem Throughout.opening {motive : Value → Prop} (h : v.Throughout p)
    (whole : ∀ v : Value, v.isWhole = true → motive v)
    (opened : ∀ entries : Entries Value, (Value.map entries).isWhole = false → p entries →
      (∀ e ∈ entries, motive e.2) → motive (.map entries)) : motive v := by
  induction h with
  | @leaf v h =>
    apply whole
    cases v with
    | map entries => exact absurd rfl (h entries)
    | _ => rfl
  | @map entries h values ih =>
    cases hw : (Value.map entries).isWhole with
    | true => exact whole _ hw
    | false => exact opened entries hw h ih

theorem flatten_eq_parts (h : v.Throughout p) (key : String) :
    flatten key v = (parts v).map fun part => (part.1.foldl Path.under key, part.2) := by
  revert key
  apply h.opening
  · intro v hw key
    rw [flatten_whole hw, parts_whole hw]
    rfl
  · intro entries hw _ ih key
    rw [flatten_opened hw, parts_opened hw, List.map_flatMap]
    apply List.flatMap_congr
    intro e he
    rw [ih e he, List.map_map]
    rfl

theorem at?_append (path path' : List String) (v : Value) :
    at? (path ++ path') v = (at? path v).bind (at? path') := by
  induction path generalizing v with
  | nil => rfl
  | cons key path ih =>
    cases v with
    | map entries =>
      rw [List.cons_append, at?_cons, at?_cons]
      cases Entries.get? entries key with
      | none => rfl
      | some inner => exact ih inner
    | _ => rfl

theorem at?_parts (h : v.Throughout Entries.Distinct) :
    ∀ part ∈ parts v, at? part.1 v = some part.2 := by
  apply h.opening
  · intro v hw part hpart
    rw [parts_whole hw, List.mem_singleton] at hpart
    rw [hpart, at?]
  · intro entries hw hdistinct ih part hpart
    rw [parts_opened hw] at hpart
    obtain ⟨e, he, hpart⟩ := List.mem_flatMap.mp hpart
    obtain ⟨inner, hinner, rfl⟩ := List.mem_map.mp hpart
    rw [at?_cons, hdistinct.get?_eq_some he (BEq.rfl)]
    exact ih e he inner hinner

theorem pairwise_parts (h : v.Throughout Entries.Distinct) :
    (parts v).Pairwise fun part other => Apart part.1 other.1 := by
  apply h.opening
  · intro v hw
    rw [parts_whole hw]
    exact List.pairwise_singleton _ _
  · intro entries hw hdistinct ih
    rw [parts_opened hw, List.pairwise_flatMap]
    constructor
    · intro e he
      apply List.pairwise_map.mpr
      apply (ih e he).imp
      exact apart_cons_iff.mpr
    · apply List.Pairwise.imp ?_ hdistinct
      -- The paths of two entries differ in their first keys.
      intro e f hne part hpart other hother
      obtain ⟨inner, _, rfl⟩ := List.mem_map.mp hpart
      obtain ⟨inner', _, rfl⟩ := List.mem_map.mp hother
      exact apart_of_ne (beq_eq_false_iff_ne.mp hne) inner.1 inner'.1

theorem keys_parts {q : String → Prop} (h : v.Throughout fun entries => ∀ e ∈ entries, q e.1) :
    ∀ part ∈ parts v, ∀ key ∈ part.1, q key := by
  apply h.opening
  · intro v hw part hpart
    rw [parts_whole hw, List.mem_singleton] at hpart
    rw [hpart]
    exact nofun
  · intro entries hw hkeys ih part hpart
    rw [parts_opened hw] at hpart
    obtain ⟨e, he, hpart⟩ := List.mem_flatMap.mp hpart
    obtain ⟨inner, hinner, rfl⟩ := List.mem_map.mp hpart
    exact List.forall_mem_cons.mpr ⟨hkeys e he, ih e he inner hinner⟩

end Value

section Reading

variable {schema : Schema} {path : String} {v : Value} {e : Expression}

theorem readOperator_ne_join {field suffix op : String} :
    readOperator schema field suffix op v ≠ .ok (.join e) := by
  unfold readOperator
  split
  · split <;> simp
  · simp

theorem readPlain_ne_join {field : String} : readPlain schema field v ≠ .ok (.join e) := by
  unfold readPlain
  split
  · split
    · split <;> simp
    · simp
    · simp
  · simp

theorem join_of_classify (h : classify schema path v = .ok (.join e)) :
    ∃ payload, e = .join (rewrap path v).1 payload ∧
      ∃ found, marked? joinMarker (rewrap path v).2 = some found := by
  unfold classify at h
  dsimp only at h
  split at h
  · rename_i found hfound
    unfold readJoin at h
    split at h
    · obtain ⟨payload, _, h⟩ := Outcome.bind_eq_ok_iff.mp h
      cases h
      exact ⟨payload, rfl, found, hfound⟩
    · cases h
  · split at h
    · exact absurd h readOperator_ne_join
    · exact absurd h readPlain_ne_join

/-- The keys to the marker: of an object it is one of its keys, else the last key ends with it. -/
def markerKeys : List String × Value → List String
  | (keys, .map _) => keys ++ [joinMarker]
  | (keys, _) => keys

theorem rewrap_leaf (path : String) (hleaf : ∀ entries, v ≠ .map entries) :
    rewrap path v = (path, v) ∨
      ∃ field suffix, path = Path.under field suffix ∧
        rewrap path v = (field, .map [(suffix, v)]) := by
  unfold rewrap
  split
  · exact absurd rfl (hleaf _)
  · split
    · rename_i hsplit
      split
      · exact .inr ⟨_, _, Path.splitLast?_eq_some hsplit, rfl⟩
      · exact .inl rfl
    · exact .inl rfl

theorem marked?_leaf (hleaf : ∀ entries, v ≠ .map entries) (marker : String) :
    marked? marker v = none := by
  unfold marked?
  split
  · exact absurd rfl (hleaf _)
  · rfl

theorem marked?_rewrap {found : Value} (h : marked? joinMarker (rewrap path v).2 = some found) :
    (∃ entries, v = .map entries ∧ (rewrap path v).1 = path ∧
        Entries.get? entries joinMarker = some found) ∨
      (∀ entries, v ≠ .map entries) ∧ path = Path.under (rewrap path v).1 joinMarker := by
  by_cases hmap : ∃ entries, v = .map entries
  · obtain ⟨entries, rfl⟩ := hmap
    exact .inl ⟨entries, rfl, rfl, h⟩
  · have hleaf : ∀ entries, v ≠ .map entries := fun entries he => hmap ⟨entries, he⟩
    refine .inr ⟨hleaf, ?_⟩
    rcases rewrap_leaf path hleaf with hr | ⟨field, suffix, hpath, hr⟩
    · rw [hr] at h
      cases (marked?_leaf hleaf joinMarker).symm.trans h
    · rw [hr] at h ⊢
      obtain ⟨entry, hentry, hsuffix, _⟩ := Entries.mem_of_get?_eq_some h
      cases List.mem_singleton.mp hentry
      cases beq_iff_eq.mp hsuffix
      exact hpath

/-- The field of a join and the marker are spelled by the keys to the marker, and something stands
under them. -/
theorem join_at_marker {key : String} {part : List String × Value}
    (h : classify schema (part.1.foldl Path.under key) part.2 = .ok (.join e)) :
    Path.under e.field joinMarker = Path.dotted ((markerKeys part).foldl Path.under key) ∧
      ∀ v, Value.at? part.1 v = some part.2 →
        ∃ found, Value.at? (markerKeys part) v = some found := by
  obtain ⟨keys, v⟩ := part
  obtain ⟨payload, rfl, found, hfound⟩ := join_of_classify h
  have hmarker : Path.dotted joinMarker = joinMarker := by decide
  rcases marked?_rewrap hfound with ⟨entries, rfl, hkey, hget⟩ | ⟨hleaf, hpath⟩
  · rw [markerKeys, List.foldl_append, List.foldl_cons, List.foldl_nil, Path.dotted_under, hmarker,
      Expression.field, hkey]
    refine ⟨rfl, fun w hw => ⟨found, ?_⟩⟩
    rw [Value.at?_append, hw, Option.bind_some, Value.at?_cons, hget]
    rfl
  · have hkeys : markerKeys (keys, v) = keys := by
      cases v with
      | map entries => exact absurd rfl (hleaf entries)
      | _ => rfl
    rw [hkeys]
    refine ⟨?_, fun w hw => ⟨v, hw⟩⟩
    rw [hpath, Path.dotted_under, hmarker, Expression.field, ← hpath]

end Reading

structure Place where
  top : Scalar
  keys : List String

namespace Place

/-- The keys with dots between them, where arrows are read as dots as well. -/
def spelled (place : Place) : String :=
  Path.dotted (place.keys.foldl Path.under place.top.plain)

def Present (place : Place) (query : Dict) : Prop :=
  ∃ e ∈ query, e.1 = place.top ∧ ∃ found, Value.at? place.keys e.2 = some found

def Differs (place other : Place) : Prop :=
  (place.top == other.top) = false ∨ place.keys ≠ other.keys

end Place

section Query

variable {schema : Schema} {query : Dict} {q : QueryObject}

def Parameter.field? : Parameter → Option (String × Value)
  | .field path v => some (path, v)
  | _ => none

def Dict.parts (query : Dict) : List (Scalar × List String × Value) :=
  query.flatMap fun e => e.2.parts.map fun part => (e.1, part)

theorem Dict.mem_parts {part : Scalar × List String × Value} :
    part ∈ query.parts ↔ ∃ e ∈ query, e.1 = part.1 ∧ part.2 ∈ e.2.parts := by
  obtain ⟨key, part⟩ := part
  simp [Dict.parts]

theorem sublist_fields_entry {p : Entries Value → Prop} {e : Scalar × Value}
    (h : e.2.Throughout p) :
    ((entryParameters e.1 e.2).filterMap Parameter.field?).Sublist
      (e.2.parts.map fun part => (part.1.foldl Path.under e.1.plain, part.2)) := by
  obtain ⟨key, v⟩ := e
  have hfields (leaves : List (String × Value)) :
      (leaves.map fun leaf => Parameter.field leaf.1 leaf.2).filterMap Parameter.field? =
        leaves := by
    rw [List.filterMap_map]
    exact List.filterMap_some
  rw [← Value.flatten_eq_parts h key.plain]
  by_cases htext : ∃ name, key = .text name
  · obtain ⟨name, rfl⟩ := htext
    rw [entryParameters]
    split
    · exact List.nil_sublist _
    · rw [hfields]
      exact .refl _
  · rw [entryParameters_of_ne_text fun name he => htext ⟨name, he⟩]
    split
    · exact List.nil_sublist _
    · rw [hfields]

theorem sublist_fields {p : Entries Value → Prop} (h : ∀ e ∈ query, e.2.Throughout p) :
    ((parameters query).filterMap Parameter.field?).Sublist
      (query.parts.map fun part => (part.2.1.foldl Path.under part.1.plain, part.2.2)) := by
  induction query with
  | nil => exact .slnil
  | cons e rest ih =>
    obtain ⟨he, hrest⟩ := List.forall_mem_cons.mp h
    rw [parameters, Dict.parts, List.flatMap_cons, List.flatMap_cons, List.filterMap_append,
      List.map_append, List.map_map]
    exact (sublist_fields_entry he).append (ih hrest)

theorem pairwise_parts (hdistinct : Entries.Distinct query)
    (hnested : ∀ e ∈ query, e.2.Throughout Entries.Distinct) :
    query.parts.Pairwise fun part other =>
      (part.1 == other.1) = false ∨ Value.Apart part.2.1 other.2.1 := by
  rw [Dict.parts, List.pairwise_flatMap]
  constructor
  · intro e he
    apply List.pairwise_map.mpr
    exact (Value.pairwise_parts (hnested e he)).imp .inr
  · apply List.Pairwise.imp ?_ hdistinct
    intro e f hne part hpart other hother
    obtain ⟨_, _, rfl⟩ := List.mem_map.mp hpart
    obtain ⟨_, _, rfl⟩ := List.mem_map.mp hother
    exact .inl hne

theorem joins_of_reads {ps : List Parameter} {readings : List Reading}
    (h : List.Forall₂ (fun p reading => p.read schema = .ok reading) ps readings) :
    ∃ fields, fields.Sublist (ps.filterMap Parameter.field?) ∧
      List.Forall₂ (fun field e => classify schema field.1 field.2 = .ok (.join e)) fields
        (readings.filterMap Reading.join?) := by
  induction h with
  | nil => exact ⟨[], .slnil, .nil⟩
  | @cons p reading _ _ hp _ ih =>
    obtain ⟨fields, hsub, hjoins⟩ := ih
    cases p with
    | control key v =>
      have hcontrol := Parameter.control?_read hp
      cases reading with
      | control key v => exact ⟨fields, hsub, hjoins⟩
      | _ => cases hcontrol
    | field path v =>
      cases reading with
      | join e => exact ⟨(path, v) :: fields, hsub.cons_cons _, .cons hp hjoins⟩
      | _ => exact ⟨fields, hsub.cons _, hjoins⟩
    | unnamed => cases hp

def JoinsPart (schema : Schema) (part : Scalar × List String × Value) (e : Expression) : Prop :=
  classify schema (part.2.1.foldl Path.under part.1.plain) part.2.2 = .ok (.join e)

/-- The joins of a query are read of some of its parts, in their order. -/
theorem joins_of_parts {p : Entries Value → Prop} (hnested : ∀ e ∈ query, e.2.Throughout p)
    (h : QueryObject.parse schema query = .ok q) :
    ∃ parts, parts.Sublist query.parts ∧ List.Forall₂ (JoinsPart schema) parts q.joins := by
  obtain ⟨readings, hreadings, h⟩ := Outcome.bind_eq_ok_iff.mp h
  cases h
  obtain ⟨fields, hfields, hjoins⟩ := joins_of_reads (Outcome.mapM_eq_ok_iff.mp hreadings)
  obtain ⟨parts, hparts, rfl⟩ := List.sublist_map_iff.mp (hfields.trans (sublist_fields hnested))
  rw [List.forall₂_map_left_iff] at hjoins
  exact ⟨parts, hparts, hjoins⟩

theorem prefix_markerKeys (part : List String × Value) : part.1 <+: markerKeys part := by
  obtain ⟨keys, v⟩ := part
  cases v with
  | map entries => exact List.prefix_append _ _
  | _ => exact List.prefix_refl _

theorem markerKeys_ne {part other : List String × Value} (h : Value.Apart part.1 other.1) :
    markerKeys part ≠ markerKeys other := by
  intro heq
  have hother := prefix_markerKeys other
  rw [← heq] at hother
  rcases List.prefix_or_prefix_of_prefix (prefix_markerKeys part) hother with hp | hp
  · exact h.1 hp
  · exact h.2 hp

end Query

def Stage.lookupField? : Stage → Option String
  | .lookup _ (.text field) _ _ _ _ => some field
  | _ => none

theorem Populate.filterMap_lookupField? {scope : Scope} {q : QueryObject} {stages : List Stage}
    (hjoins : ∀ e ∈ q.joins, ∃ key payload, e = .join key payload)
    (h : Populate.stages scope q = .ok stages) :
    stages.filterMap Stage.lookupField? = q.joins.map Expression.field := by
  rw [stages_eq] at h
  obtain ⟨parts, hparts, rfl⟩ := Outcome.map_eq_ok_iff.mp h
  have hmade := Outcome.mapM_eq_ok_iff.mp hparts
  clear h hparts
  generalize q.joins = joins at hjoins hmade
  induction hmade with
  | nil => rfl
  | cons hpart _ ih =>
    obtain ⟨⟨key, payload, rfl⟩, hrest⟩ := List.forall_mem_cons.mp hjoins
    obtain ⟨_, _, _, _, _, _, rfl⟩ := populate_eq_ok hpart
    rw [List.flatten_cons, List.filterMap_append, ih hrest]
    rfl

namespace QueryObject

variable {schema : Schema} {query : Dict} {q : QueryObject}

/-- Each join has a place of its own in the query, and the keys to it spell the field and the
marker. -/
structure JoinsAt (query : Dict) (q : QueryObject) (places : List Place) : Prop where
  present : ∀ place ∈ places, place.Present query
  different : places.Pairwise Place.Differs
  spelled : q.joins.map (fun e => Path.under e.field joinMarker) = places.map Place.spelled

theorem JoinsAt.nodup_fields_iff {places : List Place} (h : JoinsAt query q places) :
    (q.joins.map Expression.field).Nodup ↔
      places.Pairwise fun place other => place.spelled ≠ other.spelled := by
  have hinjective : Function.Injective fun field => Path.under field joinMarker :=
    fun _ _ => Path.under_left_inj
  have hspelled : (q.joins.map Expression.field).map (fun field => Path.under field joinMarker) =
      places.map Place.spelled := by
    rw [List.map_map]
    exact h.spelled
  rw [← List.nodup_map_iff hinjective, hspelled, List.Nodup, List.pairwise_map]

def AllPlain (query : Dict) : Prop :=
  ∀ e ∈ query, (∃ key, e.1 = .text key ∧ Path.Plain key) ∧
    e.2.Throughout fun entries => ∀ f ∈ entries, Path.Plain f.1

def placeOf (part : Scalar × List String × Value) : Place where
  top := part.1
  keys := markerKeys part.2

theorem joinsAt_of_parts (hdistinct : Entries.Distinct query)
    (hnested : ∀ e ∈ query, e.2.Throughout Entries.Distinct)
    {parts : List (Scalar × List String × Value)} (hsub : parts.Sublist query.parts)
    (hjoins : List.Forall₂ (JoinsPart schema) parts q.joins) :
    JoinsAt query q (parts.map placeOf) := by
  have hmarkers := hjoins.imp fun _ _ hpart => (join_at_marker hpart).symm
  obtain ⟨hpresent, hspelled⟩ := (List.forall₂_and_left _ _).mp hmarkers
  constructor
  · intro place hplace
    obtain ⟨part, hpart, rfl⟩ := List.mem_map.mp hplace
    obtain ⟨e, he, hkey, hinner⟩ := Dict.mem_parts.mp (hsub.subset hpart)
    exact ⟨e, he, hkey, hpresent part hpart e.2 (Value.at?_parts (hnested e he) part.2 hinner)⟩
  · apply List.pairwise_map.mpr
    apply ((pairwise_parts hdistinct hnested).sublist hsub).imp
    intro part other hapart
    exact hapart.imp id markerKeys_ne
  · have heq : List.Forall₂ Eq (q.joins.map fun e => Path.under e.field joinMarker)
        ((parts.map placeOf).map Place.spelled) := by
      rw [List.map_map, List.forall₂_map_left_iff, List.forall₂_map_right_iff]
      exact hspelled.flip
    rwa [List.forall₂_eq_eq_eq] at heq

theorem plain_placeOf (h : AllPlain query) {part : Scalar × List String × Value}
    (hpart : part ∈ query.parts) :
    ∃ top, part.1 = .text top ∧ ∀ key ∈ top :: (placeOf part).keys, Path.Plain key := by
  obtain ⟨key, keys, v⟩ := part
  obtain ⟨e, he, rfl, hinner⟩ := Dict.mem_parts.mp hpart
  obtain ⟨⟨top, htop, hplain⟩, hnested⟩ := h e he
  have hkeys := Value.keys_parts hnested _ hinner
  have hmarker : ∀ key ∈ [joinMarker], Path.Plain key := by decide
  refine ⟨top, htop, List.forall_mem_cons.mpr ⟨hplain, ?_⟩⟩
  cases v with
  | map entries => exact List.forall_mem_append.mpr ⟨hkeys, hmarker⟩
  | _ => exact hkeys

theorem spelled_ne {place other : Place} {top top' : String} (htop : place.top = .text top)
    (htop' : other.top = .text top') (hplain : ∀ key ∈ top :: place.keys, Path.Plain key)
    (hplain' : ∀ key ∈ top' :: other.keys, Path.Plain key) (h : place.Differs other) :
    place.spelled ≠ other.spelled := by
  have hspelled {place : Place} {top : String} (htop : place.top = .text top)
      (hplain : ∀ key ∈ top :: place.keys, Path.Plain key) :
      place.spelled = place.keys.foldl Path.under top := by
    obtain ⟨htopPlain, hkeys⟩ := List.forall_mem_cons.mp hplain
    rw [Place.spelled, htop, Path.dotted_foldl_under hkeys]
    exact congrArg (place.keys.foldl Path.under) htopPlain.dotted_eq
  obtain ⟨hkey, hkeys⟩ := List.forall_mem_cons.mp hplain
  obtain ⟨hkey', hkeys'⟩ := List.forall_mem_cons.mp hplain'
  rw [hspelled htop hplain, hspelled htop' hplain']
  intro heq
  obtain ⟨rfl, hsame⟩ := Path.foldl_under_inj hkey.notMem hkey'.notMem
    (fun key hk => (hkeys key hk).notMem) (fun key hk => (hkeys' key hk).notMem) heq
  rcases h with hne | hne
  · rw [htop, htop', Scalar.beq_text_eq_false_iff] at hne
    exact hne rfl
  · exact hne hsame

/-- Every join has a place of its own in the query, and documents are looked up into its field once
for the join. So no field is populated twice unless two places spell it, which takes a key with a
dot or an arrow. -/
theorem parse_joinsAt (hdistinct : Entries.Distinct query)
    (hnested : ∀ e ∈ query, e.2.Throughout Entries.Distinct) (h : parse schema query = .ok q) :
    ∃ places, JoinsAt query q places ∧
      ((q.joins.map Expression.field).Nodup ↔
        places.Pairwise fun place other => place.spelled ≠ other.spelled) ∧
      (AllPlain query → (q.joins.map Expression.field).Nodup) ∧
      ∀ (scope : Scope) (stages : List Stage), Populate.stages scope q = .ok stages →
        stages.filterMap Stage.lookupField? = q.joins.map Expression.field := by
  obtain ⟨parts, hsub, hjoins⟩ := joins_of_parts hnested h
  have hat := joinsAt_of_parts hdistinct hnested hsub hjoins
  refine ⟨parts.map placeOf, hat, hat.nodup_fields_iff, ?_, ?_⟩
  · intro hplain
    apply hat.nodup_fields_iff.mpr
    apply hat.different.imp_of_mem
    intro place other hplace hother hdiffers
    obtain ⟨part, hpart, rfl⟩ := List.mem_map.mp hplace
    obtain ⟨part', hpart', rfl⟩ := List.mem_map.mp hother
    obtain ⟨top, htop, hkeys⟩ := plain_placeOf hplain (hsub.subset hpart)
    obtain ⟨top', htop', hkeys'⟩ := plain_placeOf hplain (hsub.subset hpart')
    exact spelled_ne htop htop' hkeys hkeys' hdiffers
  · intro scope stages hstages
    apply Populate.filterMap_lookupField? ?_ hstages
    intro e he
    obtain ⟨part, _, hpart⟩ := Outcome.exists_of_mem_right hjoins he
    obtain ⟨payload, hjoin, _⟩ := join_of_classify hpart
    exact ⟨_, payload, hjoin⟩

theorem parse_joinsAt_author :
    let schema : Schema :=
      { origin := .mapping, modelName := none,
        fields := [("author.company", { type := .relation, target := .text "Company" }),
          ("users", { type := .array, target := .text "User" })],
        translatable := [], collection := none }
    let query : Dict :=
      [("users", .map [("p", .text "*"), ("s", .text "x")]),
        ("author", .map [("company.p", .list [.text "name", .text "city"])])]
    let q : QueryObject :=
      { control := [], filters := []
        joins := [.join "users" (.text "*"), .join "author.company" (.text "name;city")] }
    Entries.Distinct query ∧ (∀ e ∈ query, e.2.Throughout Entries.Distinct) ∧
      parse schema query = .ok q ∧
      ∃ places, JoinsAt query q places ∧
        ((q.joins.map Expression.field).Nodup ↔
          places.Pairwise fun place other => place.spelled ≠ other.spelled) ∧
        (AllPlain query → (q.joins.map Expression.field).Nodup) ∧
        ∀ (scope : Scope) (stages : List Stage), Populate.stages scope q = .ok stages →
          stages.filterMap Stage.lookupField? = q.joins.map Expression.field := by
  intro schema query q
  have hdistinct : Entries.Distinct query := .cons (by simp) (List.pairwise_singleton _ _)
  have hnested : ∀ e ∈ query, e.2.Throughout Entries.Distinct := by
    intro e he
    simp only [query, List.mem_cons, List.not_mem_nil, or_false] at he
    have hleaf (v : Value) (hv : ∀ entries, v ≠ .map entries) : v.Throughout Entries.Distinct :=
      .leaf hv
    rcases he with rfl | rfl
    · exact .map (.cons (by simp) (List.pairwise_singleton _ _)) (by simp [hleaf])
    · exact .map (List.pairwise_singleton _ _) (by simp [hleaf])
  have h : parse schema query = .ok q := rfl
  exact ⟨hdistinct, hnested, h, parse_joinsAt hdistinct hnested h⟩

/-- A relation under a bracketed and under a dotted key is joined twice, and looked up twice. -/
theorem parse_joins_users_twice :
    let schema : Schema :=
      { origin := .mapping, modelName := none,
        fields := [("users", { type := .array, target := .text "User" })],
        translatable := [], collection := none }
    let query : Dict := [("users", .map [("p", .text "*")]), ("users.p", .text "*")]
    let q : QueryObject :=
      { control := [], filters := []
        joins := [.join "users" (.text "*"), .join "users" (.text "*")] }
    let scope : Scope := { schema, settings := {}, asked := none }
    Entries.Distinct query ∧ parse schema query = .ok q ∧
      ¬(q.joins.map Expression.field).Nodup ∧
      ∃ stages, Populate.stages scope q = .ok stages ∧
        stages.filterMap Stage.lookupField? = ["users", "users"] := by
  intro schema query q scope
  have hschema : scope.schema.NamesModels := by
    intro e he
    cases List.mem_singleton.mp he
    exact .inr ⟨"User", rfl⟩
  have hjoins : ∀ e ∈ q.joins, e = .join "users" (.text "*") := by simp [q]
  have hrelated : ∀ e ∈ q.joins, ¬Populate.Unrelated scope.schema e := by
    intro e he
    rw [hjoins e he, Populate.unrelated_iff hschema, Bool.not_eq_false]
    rfl
  obtain ⟨parts, _, hstages⟩ := Populate.stages_eq_ok hschema ⟨[], rfl⟩
    (fun e he => ⟨_, _, hjoins e he⟩) hrelated
  have hlookups := Populate.filterMap_lookupField? (fun e he => ⟨_, _, hjoins e he⟩) hstages
  refine ⟨?_, rfl, ?_, _, hstages, hlookups⟩
  · exact .cons (by simp) (List.pairwise_singleton _ _)
  · decide

end QueryObject

end QueryPipeline
