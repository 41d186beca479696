import QueryPipeline.Proofs.Query.Written
import QueryPipeline.Proofs.Rearrangement

namespace QueryPipeline

/-- One value is the other, but for the order of the entries of its maps. -/
inductive Value.Reorders : Value → Value → Prop where
  | scalar (s : Scalar) : Reorders (.scalar s) (.scalar s)
  | keyed (entries : Dict) : Reorders (.keyed entries) (.keyed entries)
  | list {xs ys : List Value} (length : xs.length = ys.length)
    (items : ∀ p ∈ xs.zip ys, Reorders p.1 p.2) : Reorders (.list xs) (.list ys)
  | map {es fs : Entries Value} (keys : (es.map Prod.fst).Perm (fs.map Prod.fst))
    (distinct : (es.map Prod.fst).Nodup)
    (values : ∀ e ∈ es, ∀ f ∈ fs, e.1 = f.1 → Reorders e.2 f.2) : Reorders (.map es) (.map fs)

/-- Is the value a leaf of its query? An object is one when its first key is a marker. -/
def Value.isWhole : Value → Bool
  | .map [] => false
  | .map (e :: _) => isMarker e.1
  | _ => true

/-- A reordering under which the leaves stay leaves, and the other objects are opened as before. -/
inductive Value.KeepsWhole : Value → Value → Prop where
  | whole {v w : Value} (h : v.Reorders w) (hv : v.isWhole = true) (hw : w.isWhole = true) :
    KeepsWhole v w
  | opened {es fs : Entries Value} (hes : (Value.map es).isWhole = false)
    (hfs : (Value.map fs).isWhole = false) (keys : (es.map Prod.fst).Perm (fs.map Prod.fst))
    (values : ∀ e ∈ es, ∀ f ∈ fs, e.1 = f.1 → KeepsWhole e.2 f.2) : KeepsWhole (.map es) (.map fs)

inductive Expression.Reorders : Expression → Expression → Prop where
  | equals (field : String) {v w : Value} (h : v.Reorders w) :
    Reorders (.equals field v) (.equals field w)
  | operator (field op : String) {v w : Value} (h : v.Reorders w) :
    Reorders (.operator field op v) (.operator field op w)
  | regex (field s : String) : Reorders (.regex field (.text s)) (.regex field (.text s))
  | join (key : String) {v w : Value} (h : v.Reorders w) : Reorders (.join key v) (.join key w)

inductive Reading.Reorders : Reading → Reading → Prop where
  | control (key : String) (v : Value) : Reorders (.control key v) (.control key v)
  | filter {e f : Expression} (h : e.Reorders f) : Reorders (.filter e) (.filter f)
  | join {e f : Expression} (h : e.Reorders f) : Reorders (.join e) (.join f)
  | unknown (field : String) : Reorders (.unknown field) (.unknown field)

inductive Parameter.Reorders : Parameter → Parameter → Prop where
  | control (key : String) {v w : Value} (h : v.Reorders w) :
    Reorders (.control key v) (.control key w)
  | field (path : String) {v w : Value} (h : v.Reorders w) :
    Reorders (.field path v) (.field path w)
  | unnamed : Reorders .unnamed .unnamed

open Outcome

namespace Value.Reorders

variable {v w : Value} {es fs : Entries Value}

theorem forall₂ {xs ys : List Value} (h : (Value.list xs).Reorders (.list ys)) :
    List.Forall₂ Reorders xs ys := by
  cases h with
  | list length items => exact List.forall₂_iff_zip.mpr ⟨length, fun hp => items _ hp⟩

theorem texts (texts : List String) :
    (Value.list (texts.map .text)).Reorders (.list (texts.map .text)) := by
  have hsame : List.Forall₂ Reorders (texts.map .text) (texts.map .text) := by
    rw [List.forall₂_map_left_iff, List.forall₂_map_right_iff, List.forall₂_same]
    exact fun s _ => .scalar (.text s)
  exact .list rfl fun p hp => (List.forall₂_iff_zip.mp hsame).2 hp

theorem singleton (h : v.Reorders w) (key : String) :
    (Value.map [(key, v)]).Reorders (.map [(key, w)]) := by
  refine .map (.refl _) (List.pairwise_singleton _ _) ?_
  intro e he f hf _
  rw [List.mem_singleton.mp he, List.mem_singleton.mp hf]
  exact h

theorem truthy_eq (h : v.Reorders w) : v.truthy = w.truthy := by
  cases h with
  | scalar s => rfl
  | keyed entries => rfl
  | @list xs ys length items =>
    cases xs <;> cases ys <;> first | rfl | cases length
  | @map es fs keys distinct values =>
    have length := keys.length_eq
    cases es <;> cases fs <;> first | rfl | cases length

theorem orElse (h : v.Reorders w) (s : Scalar) :
    (v.orElse (.scalar s)).Reorders (w.orElse (.scalar s)) := by
  rw [Value.orElse, Value.orElse, h.truthy_eq]
  split
  · exact h
  · exact .scalar s

theorem get? (h : (Value.map es).Reorders (.map fs)) (key : String) :
    Option.Rel Reorders (Entries.get? es key) (Entries.get? fs key) := by
  cases h with
  | map keys distinct values =>
    cases he : Entries.get? es key with
    | none =>
      have hf : Entries.get? fs key = none := by
        rw [Entries.get?_eq_none_iff] at he ⊢
        intro f hf
        have hk := keys.mem_iff.mpr (List.mem_map_of_mem (f := Prod.fst) hf)
        obtain ⟨e, hmem, hk⟩ := List.mem_map.mp hk
        rw [← hk]
        exact he e hmem
      rw [hf]
      exact .none
    | some v =>
      cases hf : Entries.get? fs key with
      | none =>
        rw [Entries.get?_eq_none_iff] at hf
        obtain ⟨e, hmem, hk, _⟩ := Entries.mem_of_get?_eq_some he
        obtain ⟨f, hf', hk'⟩ := List.mem_map.mp (keys.mem_iff.mp (List.mem_map_of_mem hmem))
        have hne := hf f hf'
        rw [hk', hk] at hne
        cases hne
      | some w =>
        obtain ⟨e, hmem, hk, rfl⟩ := Entries.mem_of_get?_eq_some he
        obtain ⟨f, hmem', hk', rfl⟩ := Entries.mem_of_get?_eq_some hf
        exact .some (values e hmem f hmem' ((beq_iff_eq.mp hk).trans (beq_iff_eq.mp hk').symm))

end Value.Reorders

section Reading

variable {v w : Value} {schema : Schema}

theorem readControl_reorders (h : v.Reorders w) (key : String) :
    Alike Reading.Reorders ((readControl key v).mapError Fault.invalidQuery)
      ((readControl key w).mapError Fault.invalidQuery) := by
  have hlist (items : List Value) : ∃ cause, readControl key (.list items) = .error cause := by
    unfold readControl
    split <;> exact ⟨_, rfl⟩
  have hmap (entries : Entries Value) :
      ∃ cause, readControl key (.map entries) = .error cause := by
    unfold readControl
    split <;> exact ⟨_, rfl⟩
  cases h with
  | scalar s =>
    unfold readControl
    split
    · exact .error _ _
    · exact .ok (.control key (.scalar s))
  | keyed entries =>
    unfold readControl
    split <;> exact .error _ _
  | @list xs ys length items =>
    obtain ⟨cause, hxs⟩ := hlist xs
    obtain ⟨cause', hys⟩ := hlist ys
    rw [hxs, hys]
    exact .error _ _
  | @map es fs keys distinct values =>
    obtain ⟨cause, hes⟩ := hmap es
    obtain ⟨cause', hfs⟩ := hmap fs
    rw [hes, hfs]
    exact .error _ _

theorem rewrap_reorders (h : v.Reorders w) (path : String) :
    (rewrap path v).1 = (rewrap path w).1 ∧ (rewrap path v).2.Reorders (rewrap path w).2 := by
  unfold rewrap
  have hvw := h
  cases h with
  | map keys distinct values => exact ⟨rfl, hvw⟩
  | _ =>
    dsimp only
    split
    · split
      · exact ⟨rfl, hvw.singleton _⟩
      · exact ⟨rfl, hvw⟩
    · exact ⟨rfl, hvw⟩

theorem payloadOf_reorders (h : v.Reorders w) :
    Alike Value.Reorders (payloadOf v) (payloadOf w) := by
  have hvw := h
  cases h with
  | list length items =>
    refine (mapM_forall₂ (s := Eq) (hvw.forall₂.imp ?_)).map ?_
    · intro x y h
      cases h with
      | scalar s =>
        cases s with
        | text s => exact .ok rfl
        | _ => exact .error _ _
      | _ => exact .error _ _
    · intro texts texts' h
      rw [List.forall₂_eq_eq_eq] at h
      rw [h]
      exact (Value.Reorders.scalar (.text _)).orElse _
  | _ => exact .ok (hvw.orElse _)

theorem readJoin_reorders (h : v.Reorders w) (path : String) :
    Alike Reading.Reorders (readJoin schema path v) (readJoin schema path w) := by
  unfold readJoin
  split
  · have hpayload := payloadOf_reorders h
    generalize payloadOf v = x at hpayload
    generalize payloadOf w = y at hpayload
    cases hpayload with
    | ok h => exact .ok (.join (.join path h))
    | error f g => exact .error _ _
  · exact .ok (.unknown _)

theorem listOf_reorders (h : v.Reorders w) (hmap : ∀ es, v ≠ .map es) :
    (listOf v).Reorders (listOf w) := by
  have hsame {v : Value} (hlist : ∀ items, v ≠ .list items) : (listOf v).Reorders (listOf v) := by
    obtain ⟨texts, ht⟩ := Value.listOf_texts hlist
    rw [ht]
    exact .texts texts
  cases h with
  | list length items => exact .list length items
  | map keys distinct values => exact absurd rfl (hmap _)
  | scalar s => exact hsame fun _ he => nomatch he
  | keyed entries => exact hsame fun _ he => nomatch he

theorem readOperator_reorders (h : v.Reorders w) (field suffix op : String) :
    Alike Reading.Reorders (readOperator schema field suffix op v)
      (readOperator schema field suffix op w) := by
  have hoperand (hmap : ∀ es, v ≠ .map es) :
      (if listOperators.contains op then listOf v else v).Reorders
        (if listOperators.contains op then listOf w else w) := by
    split
    · exact listOf_reorders h hmap
    · exact h
  unfold readOperator
  split
  · cases h with
    | map keys distinct values => exact .error _ _
    | keyed entries => exact .error _ _
    | _ => exact .ok (.filter (.operator field op (hoperand fun _ he => nomatch he)))
  · exact .ok (.unknown _)

theorem readPlain_reorders (h : v.Reorders w) (field : String) :
    Alike Reading.Reorders (readPlain schema field v) (readPlain schema field w) := by
  unfold readPlain
  split
  · have hvw := h
    cases h with
    | @map es fs keys distinct values =>
      have hmarked := hvw.get? regexMarker
      dsimp only
      generalize Entries.get? es regexMarker = x at hmarked
      generalize Entries.get? fs regexMarker = y at hmarked
      cases hmarked with
      | none => exact .error _ _
      | some h =>
        cases h with
        | scalar s =>
          cases s with
          | text s => exact .ok (.filter (.regex field s))
          | _ => exact .error _ _
        | _ => exact .error _ _
    | keyed entries => exact .error _ _
    | _ => exact .ok (.filter (.equals field hvw))
  · exact .ok (.unknown _)

theorem marked?_reorders (h : v.Reorders w) (marker : String) :
    Option.Rel Value.Reorders (marked? marker v) (marked? marker w) := by
  have hvw := h
  cases h with
  | map keys distinct values => exact hvw.get? marker
  | _ => exact .none

theorem classify_reorders (h : v.Reorders w) (path : String) :
    Alike Reading.Reorders (classify schema path v) (classify schema path w) := by
  obtain ⟨hpath, hvalue⟩ := rewrap_reorders h path
  unfold classify
  generalize rewrap path v = x at hpath hvalue
  generalize rewrap path w = y at hpath hvalue
  obtain ⟨path, v⟩ := x
  obtain ⟨_, w⟩ := y
  cases hpath
  have hmarked := marked?_reorders hvalue joinMarker
  dsimp only
  generalize marked? joinMarker v = x at hmarked
  generalize marked? joinMarker w = y at hmarked
  cases hmarked with
  | some h => exact readJoin_reorders h path
  | none =>
    dsimp only
    split
    · exact readOperator_reorders hvalue _ _ _
    · exact readPlain_reorders hvalue _

theorem Parameter.Reorders.read {p q : Parameter} (h : p.Reorders q) (schema : Schema) :
    Alike Reading.Reorders (p.read schema) (q.read schema) := by
  cases h with
  | control key h => exact readControl_reorders h key
  | field path h => exact classify_reorders h path
  | unnamed => exact .error _ _

end Reading

section Flattening

theorem flatten_whole {v : Value} (h : v.isWhole = true) (key : String) :
    flatten key v = [(key, v)] := by
  cases v with
  | map entries =>
    cases entries with
    | nil => cases h
    | cons e rest =>
      rw [flatten_cons, if_pos]
      exact h
  | _ => exact flatten_leaf (by simp) key

theorem flatten_opened {entries : Entries Value} (h : (Value.map entries).isWhole = false)
    (key : String) :
    flatten key (.map entries) = entries.flatMap fun e => flatten (Path.under key e.1) e.2 := by
  cases entries with
  | nil => rw [flatten, List.flatMap_nil]
  | cons e rest =>
    rw [flatten_cons, if_neg, flattenEntries_eq]
    exact Bool.eq_false_iff.mp h

theorem Value.KeepsWhole.leaves {v w : Value} (h : v.KeepsWhole w) (key : String) :
    RearrangedBy (fun a b => a.1 = b.1 ∧ a.2.Reorders b.2) (flatten key v) (flatten key w) := by
  induction h generalizing key with
  | whole h hv hw =>
    rw [flatten_whole hv, flatten_whole hw]
    exact .of_forall₂ (.cons ⟨rfl, h⟩ .nil)
  | opened hes hfs keys _ ih =>
    rw [flatten_opened hes, flatten_opened hfs]
    -- Entries with one key are opened under one path, so the induction is over all paths.
    have hpairs := (RearrangedBy.of_keys keys).imp_mem fun e he f hf hk =>
      And.intro hk (ih e he f hf hk)
    refine hpairs.flatMap ?_
    intro e f h
    rw [h.1]
    exact h.2 _

theorem Value.KeepsWhole.fields {v w : Value} (h : v.KeepsWhole w) (key : String) :
    RearrangedBy Parameter.Reorders ((flatten key v).map fun leaf => .field leaf.1 leaf.2)
      ((flatten key w).map fun leaf => .field leaf.1 leaf.2) := by
  obtain ⟨mid, hp, hmid⟩ := h.leaves key
  refine ⟨mid.map fun leaf => .field leaf.1 leaf.2, hp.map _, ?_⟩
  rw [List.forall₂_map_left_iff, List.forall₂_map_right_iff]
  refine hmid.imp ?_
  intro a b h
  rw [h.1]
  exact .field b.1 h.2

theorem entryParameters_of_ne_text {key : Scalar} (hkey : ∀ s, key ≠ .text s) (v : Value) :
    entryParameters key v =
      if v.isWhole then [.unnamed]
      else (flatten key.plain v).map fun leaf => .field leaf.1 leaf.2 := by
  unfold entryParameters
  split
  · exact absurd rfl (hkey _)
  · rw [flatten]
    rfl
  · rename_i first v rest _
    rw [Value.isWhole, flatten_cons]
    split <;> rfl
  · rename_i hnil hcons
    rw [Value.isWhole]
    · rfl
    · exact hnil
    · exact fun e rest he => hcons e.1 e.2 rest he

theorem entryParameters_rearranged {v w : Value} (h : v.Reorders w) (key : Scalar)
    (hkeeps : (∀ name ∈ controlKeys, key ≠ .text name) → v.KeepsWhole w) :
    RearrangedBy Parameter.Reorders (entryParameters key v) (entryParameters key w) := by
  by_cases htext : ∃ name, key = .text name
  · obtain ⟨name, rfl⟩ := htext
    unfold entryParameters
    dsimp only
    split
    · exact .of_forall₂ (.cons (.control name h) .nil)
    · rename_i hcontrol
      refine (hkeeps ?_).fields name
      intro other hother he
      rw [Scalar.text.inj he] at hcontrol
      exact hcontrol (List.contains_iff_mem.mpr hother)
  · have hkey (name : String) : key ≠ .text name := fun he => htext ⟨name, he⟩
    have hvw := hkeeps fun name _ => hkey name
    rw [entryParameters_of_ne_text hkey, entryParameters_of_ne_text hkey]
    have hfields := hvw.fields key.plain
    cases hvw with
    | whole h hv hw =>
      rw [hv, hw]
      exact .of_forall₂ (.cons .unnamed .nil)
    | opened hes hfs keys values =>
      rw [hes, hfs]
      exact hfields

end Flattening

structure Dict.Reorders (q q' : Dict) : Prop where
  keys : (q.map Prod.fst).Perm (q'.map Prod.fst)
  distinct : Entries.Distinct q
  values : ∀ e ∈ q, ∀ f ∈ q', e.1 = f.1 → e.2.Reorders f.2

/-- A reordering of a query that opens the same objects as before. A control parameter is not
opened. -/
structure Dict.KeepsLeaves (q q' : Dict) : Prop extends q.Reorders q' where
  keeps : ∀ e ∈ q, ∀ f ∈ q', e.1 = f.1 → (∀ name ∈ controlKeys, e.1 ≠ .text name) →
    e.2.KeepsWhole f.2

theorem Dict.KeepsLeaves.parameters {q q' : Dict} (h : q.KeepsLeaves q') :
    RearrangedBy Parameter.Reorders (parameters q) (parameters q') := by
  have hpairs := (RearrangedBy.of_keys h.keys).imp_mem fun e he f hf hk => And.intro hk
    (entryParameters_rearranged (h.values e he f hf hk) e.1 (h.keeps e he f hf hk))
  refine hpairs.flatMap ?_
  intro e f h
  rw [← h.1]
  exact h.2

section Control

variable {schema : Schema} {reading : Reading}

def Parameter.control? : Parameter → Option (String × Value)
  | .control key v => some (key, v)
  | _ => none

theorem control?_classify {path : String} {v : Value}
    (h : classify schema path v = .ok reading) : reading.control? = none := by
  unfold classify at h
  dsimp only at h
  split at h
  · unfold readJoin at h
    split at h
    · obtain ⟨payload, _, h⟩ := bind_eq_ok_iff.mp h
      cases h
      rfl
    · cases h
      rfl
  · split at h
    · unfold readOperator at h
      split at h
      · split at h
        · cases h
        · cases h
        · cases h
          rfl
      · cases h
        rfl
    · unfold readPlain at h
      split at h
      · split at h
        · split at h
          · cases h
          · cases h
            rfl
          · cases h
        · cases h
        · cases h
          rfl
      · cases h
        rfl

theorem Parameter.control?_read {p : Parameter} (h : p.read schema = .ok reading) :
    reading.control? = p.control? := by
  cases p with
  | control key v =>
    unfold Parameter.read readControl at h
    dsimp only at h
    split at h
    · cases h
    · split at h
      · cases h
      · cases h
      · cases h
      · cases h
        rfl
  | field path v => exact control?_classify h
  | unnamed => cases h

theorem control?_readings {ps : List Parameter} {readings : List Reading}
    (h : List.Forall₂ (fun p reading => p.read schema = .ok reading) ps readings) :
    readings.filterMap Reading.control? = ps.filterMap Parameter.control? := by
  induction h with
  | nil => rfl
  | cons hp _ ih => rw [List.filterMap_cons, List.filterMap_cons, Parameter.control?_read hp, ih]

theorem filterMap_control?_fields (leaves : List (String × Value)) :
    (leaves.map fun leaf => Parameter.field leaf.1 leaf.2).filterMap Parameter.control? = [] := by
  rw [List.filterMap_map]
  exact List.filterMap_eq_nil_iff.mpr fun _ _ => rfl

theorem sublist_entryParameters (e : Scalar × Value) :
    (Dict.ofEntries ((entryParameters e.1 e.2).filterMap Parameter.control?)).Sublist [e] := by
  obtain ⟨key, v⟩ := e
  by_cases htext : ∃ name, key = .text name
  · obtain ⟨name, rfl⟩ := htext
    unfold entryParameters
    dsimp only
    split
    · exact .refl _
    · rw [filterMap_control?_fields]
      exact List.nil_sublist _
  · rw [entryParameters_of_ne_text fun name he => htext ⟨name, he⟩]
    split
    · exact List.nil_sublist _
    · rw [filterMap_control?_fields]
      exact List.nil_sublist _

theorem sublist_control {q : Dict} {r : QueryObject} (h : QueryObject.parse schema q = .ok r) :
    (Dict.ofEntries r.control).Sublist q := by
  obtain ⟨readings, hr, h⟩ := bind_eq_ok_iff.mp h
  cases h
  change (Dict.ofEntries (readings.filterMap Reading.control?)).Sublist q
  rw [control?_readings (mapM_eq_ok_iff.mp hr), parameters]
  clear hr h
  induction q with
  | nil => exact .slnil
  | cons e rest ih =>
    rw [List.flatMap_cons, List.filterMap_append, Dict.ofEntries, List.map_append]
    exact (sublist_entryParameters e).append ih

theorem distinct_control {q : Dict} {r : QueryObject} (hq : Entries.Distinct q)
    (h : QueryObject.parse schema q = .ok r) : Entries.Distinct r.control := by
  have hcontrol := List.pairwise_map.mp (hq.sublist (sublist_control h))
  refine hcontrol.imp ?_
  intro e f hne
  rw [← Scalar.text_beq_text]
  exact hne

end Control

namespace QueryObject

structure Reorders (q q' : QueryObject) : Prop where
  control : q.control.Perm q'.control
  filters : RearrangedBy Expression.Reorders q.filters q'.filters
  joins : RearrangedBy Expression.Reorders q.joins q'.joins

theorem parse_alike (schema : Schema) {q q' : Dict} (h : q.KeepsLeaves q') :
    Alike Reorders (parse schema q) (parse schema q') := by
  have hread := mapM_rearranged (h.parameters.imp_mem fun p _ p' _ hp => hp.read schema)
  refine hread.map ?_
  intro readings readings' h
  constructor
  · refine (h.filterMap (s := Eq) ?_).perm
    intro reading reading' h
    cases h with
    | control key v => exact .some rfl
    | _ => exact .none
  · refine h.filterMap ?_
    intro reading reading' h
    cases h with
    | filter h => exact .some h
    | _ => exact .none
  · refine h.filterMap ?_
    intro reading reading' h
    cases h with
    | join h => exact .some h
    | _ => exact .none

/-- However the parameters of a query are ordered, as long as the same objects are opened, either
none of them can be parsed or all come to the same parameters in another order. -/
theorem parse_reordered (schema : Schema) {q q' : Dict} (h : q.KeepsLeaves q') :
    ((∃ f, parse schema q = .error f) ↔
        ∃ f, parse schema q' = .error f) ∧
      ∀ r r', parse schema q = .ok r → parse schema q' = .ok r' →
        r.Reorders r' ∧ ∀ name, r.controlValue name = r'.controlValue name := by
  have hcontrol {r : QueryObject} : parse schema q = .ok r → Entries.Distinct r.control :=
    distinct_control h.distinct
  have halike := parse_alike schema h
  generalize parse schema q = x at halike hcontrol
  generalize parse schema q' = y at halike
  cases halike with
  | ok h =>
    refine ⟨⟨nofun, nofun⟩, ?_⟩
    intro r r' hr hr'
    cases hr
    cases hr'
    refine ⟨h, fun name => ?_⟩
    -- The first entry under a name is its only one.
    rw [controlValue, controlValue, (hcontrol rfl).get?_perm h.control]
  | error f g => exact ⟨⟨fun _ => ⟨g, rfl⟩, fun _ => ⟨f, rfl⟩⟩, nofun⟩

theorem forall_swapped {κ : Type} {p : Value → Value → Prop} {k l : κ} {v v' w w' : Value}
    (hne : k ≠ l) (hv : p v v') (hw : p w w') :
    ∀ e ∈ [(k, v), (l, w)], ∀ f ∈ [(l, w'), (k, v')], e.1 = f.1 → p e.2 f.2 := by
  simp [hne, hne.symm, hv, hw]

theorem parse_reordered_price :
    let schema : Schema :=
      { origin := .mapping, modelName := none, fields := [("price", { type := .number })],
        translatable := [], collection := none }
    let q : Dict :=
      [("page", .text "2"), ("price", .map [("gt", .text "5"), ("lt", .text "9")])]
    let q' : Dict :=
      [("price", .map [("lt", .text "9"), ("gt", .text "5")]), ("page", .text "2")]
    q.KeepsLeaves q' ∧
      ((∃ f, parse schema q = .error f) ↔ ∃ f, parse schema q' = .error f) ∧
      ∀ r r', parse schema q = .ok r → parse schema q' = .ok r' →
        r.Reorders r' ∧ ∀ name, r.controlValue name = r'.controlValue name := by
  intro schema q q'
  have hne : Scalar.text "page" ≠ .text "price" := by simp
  have hprice : (Value.map [("gt", .text "5"), ("lt", .text "9")]).Reorders
      (.map [("lt", .text "9"), ("gt", .text "5")]) :=
    .map (by decide) (by decide) (forall_swapped (by decide) (.scalar _) (.scalar _))
  have hwhole (s : String) : (Value.text s).KeepsWhole (.text s) := .whole (.scalar _) rfl rfl
  have hopened : (Value.map [("gt", .text "5"), ("lt", .text "9")]).KeepsWhole
      (.map [("lt", .text "9"), ("gt", .text "5")]) :=
    .opened rfl rfl (by decide) (forall_swapped (by decide) (hwhole _) (hwhole _))
  have h : q.KeepsLeaves q' :=
    { keys := .swap _ _ _
      distinct := .cons (by simp) (List.pairwise_singleton _ _)
      values := forall_swapped hne (.scalar _) hprice
      keeps := fun e he f hf hk _ => forall_swapped hne (hwhole _) hopened e he f hf hk }
  exact ⟨h, parse_reordered schema h⟩

/-- When another key comes before the marker, the object is opened and more filters are read. -/
theorem parse_reordered_marker :
    let schema : Schema :=
      { origin := .mapping, modelName := none, fields := [("a", { type := .mixed })],
        translatable := [], collection := none }
    let q : Dict := [("a", .map [("s", .text "x"), ("b", .text "y")])]
    let q' : Dict := [("a", .map [("b", .text "y"), ("s", .text "x")])]
    let r : QueryObject := { control := [], filters := [.regex "a" (.text "x")], joins := [] }
    let r' : QueryObject :=
      { control := [], filters := [.equals "a.b" (.text "y"), .regex "a" (.text "x")], joins := [] }
    q.Reorders q' ∧ parse schema q = .ok r ∧ parse schema q' = .ok r' ∧ ¬r.Reorders r' := by
  intro schema q q' r r'
  have ha : (Value.map [("s", .text "x"), ("b", .text "y")]).Reorders
      (.map [("b", .text "y"), ("s", .text "x")]) :=
    .map (by decide) (by decide) (forall_swapped (by decide) (.scalar _) (.scalar _))
  have hq : q.Reorders q' :=
    { keys := .refl _
      distinct := List.pairwise_singleton _ _
      values := by
        intro e he f hf _
        rw [List.mem_singleton.mp he, List.mem_singleton.mp hf]
        exact ha }
  refine ⟨hq, rfl, rfl, ?_⟩
  intro h
  have hlength := h.filters.length_eq
  cases hlength

end QueryObject

end QueryPipeline
