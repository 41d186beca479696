import QueryPipeline.Proofs.Entries
import QueryPipeline.Proofs.Outcome
import QueryPipeline.Proofs.Value.Equality
import QueryPipeline.Settings.Basic

namespace QueryPipeline

namespace Scalar

def Distinct (members : List Scalar) : Prop :=
  members.Pairwise fun s t => (s == t) = false

theorem contains_eq_false_iff {members : List Scalar} {s : Scalar} :
    members.contains s = false ↔ ∀ t ∈ members, (t == s) = false := by
  rw [← Bool.not_eq_true, List.contains_iff_exists_mem_beq, not_exists]
  refine forall_congr' fun t => ?_
  rw [not_and, Bool.not_eq_true]
  exact imp_congr_right fun _ => ⟨BEq.symm_false, BEq.symm_false⟩

theorem Distinct.insertMember {members : List Scalar} (h : Distinct members) (s : Scalar) :
    Distinct (Value.insertMember members s) := by
  rw [Value.insertMember]
  split
  · exact h
  · rename_i hnew
    refine List.pairwise_append.mpr ⟨h, List.pairwise_singleton _ _, fun t ht u hu => ?_⟩
    rw [List.mem_singleton.mp hu]
    exact contains_eq_false_iff.mp (Bool.eq_false_iff.mpr hnew) t ht

theorem Distinct.foldl_insertMember {members : List Scalar} (h : Distinct members)
    (more : List Scalar) : Distinct (more.foldl Value.insertMember members) := by
  induction more generalizing members with
  | nil => exact h
  | cons s rest ih => exact ih (h.insertMember s)

theorem Distinct.foldl_insertMember_eq {members more : List Scalar}
    (h : Distinct (members ++ more)) :
    more.foldl Value.insertMember members = members ++ more := by
  induction more generalizing members with
  | nil => exact (List.append_nil _).symm
  | cons s rest ih =>
    have hnew : members.contains s = false := contains_eq_false_iff.mpr fun t ht =>
      (List.pairwise_append.mp h).2.2 t ht s List.mem_cons_self
    rw [List.append_cons] at h
    rw [List.foldl_cons, Value.insertMember, hnew, if_neg Bool.false_ne_true, ih h,
      ← List.append_cons]

end Scalar

theorem Value.distinct_of_toSet {v : Value} {members : List Scalar} (h : v.toSet = .ok members) :
    Scalar.Distinct members := by
  obtain ⟨items, _, h⟩ := Outcome.bind_eq_ok_iff.mp h
  obtain ⟨scalars, _, h⟩ := Outcome.bind_eq_ok_iff.mp h
  cases h
  exact Scalar.Distinct.foldl_insertMember .nil scalars

theorem Value.toSet_members {members : List Scalar} (h : Scalar.Distinct members) :
    (Value.list (members.map .scalar)).toSet = .ok members := by
  have hscalars : (members.map Value.scalar).mapM asScalar = .ok members := by
    rw [Outcome.mapM_eq_ok_iff, List.forall₂_map_left_iff, List.forall₂_same]
    exact fun _ _ => rfl
  have hset : members.foldl insertMember [] = members := Scalar.Distinct.foldl_insertMember_eq h
  rw [toSet, items]
  change (do return (← (members.map Value.scalar).mapM asScalar).foldl insertMember []) = _
  rw [hscalars]
  exact congrArg Except.ok hset

namespace Settings

def plainDefaults : Entries Value :=
  [("enable_total_count", .bool true), ("translations_enabled", .bool false),
   ("default_lang", .text "en"), ("default_limit", .int 25),
   ("default_sort_field", .text "createdAt"), ("log_query", .bool false)]

/-- The entries under keys that are no keywords. -/
def strangers (entries : Entries Value) : Entries Value :=
  entries.filter fun entry => !keywords.contains entry.1

def setOf? : Option Value → Except Mismatch (Option (List Scalar))
  | none => .ok none
  | some .null => .ok none
  | some v => some <$> v.toSet

/-- Keyword values that are read alike. -/
structure SameReading (entries entries' : Entries Value) : Prop where
  maker : Entries.get? entries makerName = Entries.get? entries' makerName
  strangers : strangers entries = strangers entries'
  hidden : (·.getD []) <$> setOf? (Entries.get? entries "fields_to_hide") =
    (·.getD []) <$> setOf? (Entries.get? entries' "fields_to_hide")
  languages : setOf? (Entries.get? entries "available_langs") =
    setOf? (Entries.get? entries' "available_langs")
  plain : ∀ d ∈ plainDefaults,
    (Entries.get? entries d.1).getD d.2 = (Entries.get? entries' d.1).getD d.2

theorem SameReading.update {entries entries' : Entries Value} (h : SameReading entries entries')
    (changes : Entries Value) :
    SameReading (Entries.update entries changes) (Entries.update entries' changes) := by
  constructor
  · rw [Entries.get?_update, Entries.get?_update entries', h.maker]
  · have hupdate (es : Entries Value) : Settings.strangers (Entries.update es changes) =
        Entries.update (Settings.strangers es) (Settings.strangers changes) :=
      Entries.filter_update (fun key => !keywords.contains key) es changes
    rw [hupdate, hupdate, h.strangers]
  · rw [Entries.get?_update, Entries.get?_update entries']
    cases Entries.get? (Entries.update [] changes) "fields_to_hide" with
    | none => exact h.hidden
    | some v => rfl
  · rw [Entries.get?_update, Entries.get?_update entries']
    cases Entries.get? (Entries.update [] changes) "available_langs" with
    | none => exact h.languages
    | some v => rfl
  · intro d hd
    rw [Entries.get?_update, Entries.get?_update entries']
    cases Entries.get? (Entries.update [] changes) d.1 with
    | none => exact h.plain d hd
    | some v => rfl

theorem create_eq (entries : Entries Value) :
    create entries =
      if (Entries.get? entries makerName).isSome then .error (.mismatch .keywordTaken)
      else if Entries.keys (strangers entries) ≠ [] then
        .error (.unknownSettings
          ((Entries.keys (strangers entries)).mergeSort fun a b => decide (a ≤ b)))
      else do
        let hiddenFields ← Mismatch.lift
          ((·.getD []) <$> setOf? (Entries.get? entries "fields_to_hide"))
        let languages ← Mismatch.lift (setOf? (Entries.get? entries "available_langs"))
        let pageSize ← pageSizeOf ((Entries.get? entries "default_limit").getD (.int 25))
        return {
          countsTotal := (Entries.get? entries "enable_total_count").getD (.bool true)
          hiddenFields
          translates := (Entries.get? entries "translations_enabled").getD (.bool false)
          defaultLanguage := (Entries.get? entries "default_lang").getD (.text "en")
          languages
          pageSize
          defaultSort := (Entries.get? entries "default_sort_field").getD (.text "createdAt")
          logs := (Entries.get? entries "log_query").getD (.bool false) } := by
  have hkeys : Entries.keys (strangers entries) =
      (Entries.keys entries).filter fun key => !keywords.contains key := by
    rw [Entries.keys, Entries.keys, List.filter_map]
    rfl
  have hset (keyword : String) :
      setUnder entries keyword = setOf? (Entries.get? entries keyword) := rfl
  unfold create
  rw [hkeys]
  simp only [hset, Entries.has]
  split
  · rfl
  · split
    · rfl
    · cases setOf? (Entries.get? entries "fields_to_hide") <;> rfl

theorem create_congr {entries entries' : Entries Value} (h : SameReading entries entries') :
    create entries = create entries' := by
  obtain ⟨maker, strangers, hidden, languages, plain⟩ := h
  simp only [plainDefaults, List.forall_mem_cons] at plain
  obtain ⟨total, translates, language, pageSize, sort, logs, _⟩ := plain
  rw [create_eq, create_eq entries', maker, strangers, hidden, languages, total, translates,
    language, pageSize, sort, logs]

theorem pageSizeOf_eq_ok_iff {v : Value} {n : Int} :
    pageSizeOf v = .ok n ↔ v = .int n ∧ 0 < n := by
  unfold pageSizeOf
  split
  · rename_i m
    split
    · simp only [Except.ok.injEq, Value.scalar.injEq, Scalar.int.injEq]
      exact ⟨fun h => h ▸ ⟨rfl, ‹_›⟩, fun h => h.1⟩
    · simp only [reduceCtorEq, Value.scalar.injEq, Scalar.int.injEq, false_iff, not_and]
      exact fun h => h ▸ ‹_›
  · rename_i hint
    simp only [reduceCtorEq, false_iff, not_and]
    exact fun h => absurd h (hint n)

/-- What settings owe to the keyword values that they were made from. -/
structure MadeFrom (entries : Entries Value) (s : Settings) : Prop where
  maker : Entries.get? entries makerName = none
  strangers : strangers entries = []
  hidden : (·.getD []) <$> setOf? (Entries.get? entries "fields_to_hide") = .ok s.hiddenFields
  languages : setOf? (Entries.get? entries "available_langs") = .ok s.languages
  plain : ∀ d ∈ plainDefaults,
    (Entries.get? entries d.1).getD d.2 = (Entries.get? s.toEntries d.1).getD d.2
  pageSize_pos : 0 < s.pageSize

theorem madeFrom_of_create {entries : Entries Value} {s : Settings} (h : create entries = .ok s) :
    MadeFrom entries s := by
  rw [create_eq] at h
  split at h
  · cases h
  · rename_i hmaker
    split at h
    · cases h
    · rename_i hkeys
      obtain ⟨hidden, hhidden, h⟩ := Outcome.bind_eq_ok_iff.mp h
      obtain ⟨languages, hlanguages, h⟩ := Outcome.bind_eq_ok_iff.mp h
      obtain ⟨pageSize, hsize, h⟩ := Outcome.bind_eq_ok_iff.mp h
      cases h
      obtain ⟨hint, hpos⟩ := pageSizeOf_eq_ok_iff.mp hsize
      refine {
        maker := Option.not_isSome_iff_eq_none.mp hmaker
        strangers := List.map_eq_nil_iff.mp (not_not.mp hkeys)
        hidden := Outcome.lift_eq_ok_iff.mp hhidden
        languages := Outcome.lift_eq_ok_iff.mp hlanguages
        plain := ?_
        pageSize_pos := hpos }
      simp only [plainDefaults, List.forall_mem_cons]
      exact ⟨rfl, rfl, rfl, hint, rfl, rfl, nofun⟩

theorem distinct_of_setOf? {given : Option Value} {set : Option (List Scalar)}
    (h : setOf? given = .ok set) : ∀ members ∈ set, Scalar.Distinct members := by
  unfold setOf? at h
  split at h
  · cases h
    exact nofun
  · cases h
    exact nofun
  · obtain ⟨members, hset, rfl⟩ := Outcome.map_eq_ok_iff.mp h
    intro members' hmembers
    cases hmembers
    exact Value.distinct_of_toSet hset

theorem setOf?_members {members : List Scalar} (h : Scalar.Distinct members) :
    setOf? (some (.list (members.map .scalar))) = .ok (some members) := by
  rw [setOf?, Value.toSet_members h]
  · rfl
  · exact nofun

theorem hidden_toEntries {s : Settings} (h : Scalar.Distinct s.hiddenFields) :
    (·.getD []) <$> setOf? (Entries.get? s.toEntries "fields_to_hide") = .ok s.hiddenFields := by
  have hgiven : Entries.get? s.toEntries "fields_to_hide" =
      some (.list (s.hiddenFields.map .scalar)) := rfl
  rw [hgiven, setOf?_members h]
  rfl

theorem languages_toEntries {s : Settings}
    (h : ∀ languages ∈ s.languages, Scalar.Distinct languages) :
    setOf? (Entries.get? s.toEntries "available_langs") = .ok s.languages := by
  obtain ⟨_, _, _, _, languages, _, _, _⟩ := s
  cases languages with
  | none => rfl
  | some languages => exact setOf?_members (h languages rfl)

namespace MadeFrom

variable {entries : Entries Value} {s : Settings}

theorem distinct_hiddenFields (h : MadeFrom entries s) : Scalar.Distinct s.hiddenFields := by
  obtain ⟨given, hgiven, hs⟩ := Outcome.map_eq_ok_iff.mp h.hidden
  rw [← hs]
  cases given with
  | none => exact .nil
  | some members => exact distinct_of_setOf? hgiven members rfl

theorem distinct_languages (h : MadeFrom entries s) :
    ∀ languages ∈ s.languages, Scalar.Distinct languages :=
  distinct_of_setOf? h.languages

theorem pageSize_given (h : MadeFrom entries s) :
    (Entries.get? entries "default_limit").getD (.int 25) = .int s.pageSize :=
  h.plain ("default_limit", .int 25) (by simp [plainDefaults])

/-- Settings that are written as keyword values are read like those they were made from. -/
theorem sameReading (h : MadeFrom entries s) : SameReading entries s.toEntries := by
  constructor
  · exact h.maker
  · exact h.strangers
  -- a set that is made anew from its members is the same set
  · rw [h.hidden, hidden_toEntries h.distinct_hiddenFields]
  · rw [h.languages, languages_toEntries h.distinct_languages]
  · exact h.plain

end MadeFrom

inductive Made : Settings → Prop where
  | create {entries : Entries Value} {s : Settings} (h : create entries = .ok s) : Made s
  | ofNested {v : Value} {s : Settings} (h : ofNested v = .ok s) : Made s
  | replace {s t : Settings} {changes : Entries Value} (made : Made s)
    (h : s.replace changes = .ok t) : Made t

theorem create_of_ofNested {v : Value} {s : Settings} (h : ofNested v = .ok s) :
    ∃ entries, create entries = .ok s := by
  obtain ⟨entries, _, h⟩ := Outcome.bind_eq_ok_iff.mp h
  obtain ⟨translations, _, h⟩ := Outcome.bind_eq_ok_iff.mp h
  obtain ⟨pagination, _, h⟩ := Outcome.bind_eq_ok_iff.mp h
  obtain ⟨debug, _, h⟩ := Outcome.bind_eq_ok_iff.mp h
  exact ⟨_, h⟩

theorem replace_of_unnamed {changes : Entries Value}
    (h : Entries.has changes receiverName = false) (s : Settings) :
    s.replace changes = create (Entries.update s.toEntries changes) := by
  rw [replace, h, if_neg Bool.false_ne_true]

theorem create_of_replace {s t : Settings} {changes : Entries Value}
    (h : s.replace changes = .ok t) : ∃ entries, create entries = .ok t := by
  rw [replace] at h
  split at h
  · cases h
  · exact ⟨_, h⟩

theorem Made.exists_madeFrom {s : Settings} (h : Made s) : ∃ entries, MadeFrom entries s := by
  -- all ways end in `create`, so what was changed before does not matter
  have hcreate : ∃ entries, Settings.create entries = .ok s := by
    cases h with
    | create h => exact ⟨_, h⟩
    | ofNested h => exact create_of_ofNested h
    | replace made h => exact create_of_replace h
  obtain ⟨entries, h⟩ := hcreate
  exact ⟨entries, madeFrom_of_create h⟩

/-- Settings in order: a page has a positive size, and sets hold no member twice. -/
structure WellFormed (s : Settings) : Prop where
  pageSize_pos : 0 < s.pageSize
  hiddenFields : Scalar.Distinct s.hiddenFields
  languages : ∀ languages ∈ s.languages, Scalar.Distinct languages

/-- Changing settings comes to the same as making them from the changed keyword values: it fails
alike, or gives the same settings. Settings that were made in any way are in order. -/
theorem replace_create :
    (∀ (entries changes : Entries Value) (s : Settings), create entries = .ok s →
        Entries.has changes receiverName = false →
          s.replace changes = create (Entries.update entries changes)) ∧
      (∀ (entries : Entries Value) (s : Settings), create entries = .ok s →
        (Entries.get? entries "default_limit").getD (.int 25) = .int s.pageSize) ∧
      ∀ s, Made s → WellFormed s := by
  refine ⟨?_, ?_, ?_⟩
  · intro entries changes s hs hunnamed
    rw [replace_of_unnamed hunnamed]
    exact (create_congr ((madeFrom_of_create hs).sameReading.update changes)).symm
  · intro entries s hs
    exact (madeFrom_of_create hs).pageSize_given
  · intro s hs
    obtain ⟨entries, h⟩ := hs.exists_madeFrom
    exact ⟨h.pageSize_pos, h.distinct_hiddenFields, h.distinct_languages⟩

theorem replace_create_password_hidden_twice :
    let entries : Entries Value :=
      [("fields_to_hide", .list [.text "password", .text "__v", .text "password"]),
       ("available_langs", .null), ("default_sort_field", .null)]
    let changes : Entries Value :=
      [("available_langs", .list [.text "it", .text "en"]), ("default_limit", .int 10)]
    let s : Settings :=
      { hiddenFields := [.text "password", .text "__v"], defaultSort := .null }
    let t : Settings := { s with languages := some [.text "it", .text "en"], pageSize := 10 }
    create entries = .ok s ∧ Entries.has changes receiverName = false ∧
      s.replace changes = create (Entries.update entries changes) ∧ s.replace changes = .ok t ∧
      (Entries.get? entries "default_limit").getD (.int 25) = .int s.pageSize ∧ WellFormed t := by
  intro entries changes s t
  have hs : create entries = .ok s := rfl
  have hunnamed : Entries.has changes receiverName = false := rfl
  have ht : s.replace changes = .ok t := rfl
  obtain ⟨hreplace, hsize, hmade⟩ := replace_create
  exact ⟨hs, hunnamed, hreplace entries changes s hs hunnamed, ht, hsize entries s hs,
    hmade t (.replace (.create hs) ht)⟩

end Settings

end QueryPipeline
