import QueryPipeline.Proofs.Stage.Document

namespace QueryPipeline

namespace Value

def lookupKeys : List String :=
  ["from", "localField", "foreignField", "let", "pipeline", "as"]

/-- The fields of a lookup have the shapes that it asks for, but for the documents in its
pipeline. -/
structure LookupForm (fields : Entries Value) : Prop where
  distinct : (Entries.keys fields).Nodup
  named : ∀ key ∈ Entries.keys fields, key ∈ lookupKeys
  source : "from" ∈ Entries.keys fields
  target : "as" ∈ Entries.keys fields
  localField : ∀ v, Entries.get? fields "localField" = some v → v.isText = true
  foreignField : ∀ v, Entries.get? fields "foreignField" = some v → v.isText = true
  bindings : ∀ v, Entries.get? fields "let" = some v → v.IsMap
  pipeline : ∀ v, Entries.get? fields "pipeline" = some v → ∃ documents, v = .list documents

/-- A document that has the form of its operator, and so have the documents within it. A map that
does not have one of the operators as its only key has no form to keep to. -/
inductive StageDocument : Value → Prop where
  | fields {operator : String} {v : Value}
    (listed : operator ∈ ["$match", "$sort", "$project", "$addFields", "$set"]) (isMap : v.IsMap) :
    StageDocument (.map [(operator, v)])
  | plain {operator : String} (listed : operator ∈ ["$skip", "$limit", "$count"]) (s : Scalar) :
    StageDocument (.map [(operator, .scalar s)])
  | facet {branches : Dict}
    (lists : ∀ branch ∈ branches, ∃ documents, branch.2 = .list documents)
    (documents : ∀ name documents, (name, .list documents) ∈ branches →
      ∀ d ∈ documents, StageDocument d) : StageDocument (.map [("$facet", branches.toValue)])
  | lookup {fields : Entries Value} (form : LookupForm fields)
    (documents : ∀ documents, Entries.get? fields "pipeline" = some (.list documents) →
      ∀ d ∈ documents, StageDocument d) : StageDocument (.map [("$lookup", .map fields)])
  | other {v : Value} (isMap : v.IsMap) (unnamed : Stage.Unnamed v) : StageDocument v

/-- The second document says the same as the first, but that `$set` became `$addFields`, and that
the fields of a lookup may stand in another order. The same of two lists of documents. -/
inductive Survives : Value → Value → Prop where
  | kept {v : Value} (isMap : v.IsMap)
    (plain : ∀ operator argument, v = .map [(operator, argument)] →
      operator ∉ ["$set", "$facet", "$lookup"]) : Survives v v
  | renamed (v : Value) : Survives (.map [("$set", v)]) (.map [("$addFields", v)])
  | stages {xs ys : List Value} (length : xs.length = ys.length)
    (each : ∀ p ∈ xs.zip ys, Survives p.1 p.2) : Survives (.list xs) (.list ys)
  | facet {es fs : Dict} (length : es.length = fs.length)
    (names : ∀ p ∈ es.zip fs, p.1.1 = p.2.1)
    (branches : ∀ p ∈ es.zip fs, Survives p.1.2 p.2.2) :
    Survives (.map [("$facet", es.toValue)]) (.map [("$facet", fs.toValue)])
  | lookup {es fs : Entries Value} (keys : (Entries.keys es).Perm (Entries.keys fs))
    (fields : ∀ key, key ≠ "pipeline" → Entries.get? es key = Entries.get? fs key)
    (pipeline : ∀ v w, Entries.get? es "pipeline" = some v →
      Entries.get? fs "pipeline" = some w → Survives v w) :
    Survives (.map [("$lookup", .map es)]) (.map [("$lookup", .map fs)])

/-- Is there a lookup in the document, however deep, that has an empty pipeline and no variables, or
that has variables and no pipeline? -/
inductive HasMisprint : Value → Prop where
  | dropped {fields : Entries Value} (empty : Entries.get? fields "pipeline" = some (.list []))
    (unbound : Entries.get? fields "let" = none) : HasMisprint (.map [("$lookup", .map fields)])
  | added {fields : Entries Value} (absent : Entries.get? fields "pipeline" = none)
    (bound : (Entries.get? fields "let").isSome = true) :
    HasMisprint (.map [("$lookup", .map fields)])
  | lookup {fields : Entries Value} {documents : List Value} {d : Value}
    (under : Entries.get? fields "pipeline" = some (.list documents)) (mem : d ∈ documents)
    (misprint : HasMisprint d) : HasMisprint (.map [("$lookup", .map fields)])
  | facet {branches : Dict} {name : Scalar} {documents : List Value} {d : Value}
    (under : (name, .list documents) ∈ branches) (mem : d ∈ documents)
    (misprint : HasMisprint d) : HasMisprint (.map [("$facet", branches.toValue)])

theorem facet_injective {es fs : Dict}
    (h : Value.map [("$facet", es.toValue)] = .map [("$facet", fs.toValue)]) : es = fs := by
  have hvalue : es.toValue = fs.toValue := by simpa using h
  exact Dict.toValue_injective hvalue

theorem survives_list_iff {xs ys : List Value} :
    Survives (.list xs) (.list ys) ↔ List.Forall₂ Survives xs ys := by
  rw [List.forall₂_iff_zip]
  constructor
  · intro h
    cases h with
    | kept isMap => cases isMap
    | stages length each => exact ⟨length, each _⟩
  · intro h
    exact .stages h.1 fun p hp => h.2 hp

theorem survives_lookup_iff {es fs : Entries Value} :
    Survives (.map [("$lookup", .map es)]) (.map [("$lookup", .map fs)]) ↔
      (Entries.keys es).Perm (Entries.keys fs) ∧
      (∀ key, key ≠ "pipeline" → Entries.get? es key = Entries.get? fs key) ∧
      ∀ v w, Entries.get? es "pipeline" = some v → Entries.get? fs "pipeline" = some w →
        Survives v w := by
  constructor
  · intro h
    generalize hd : Value.map [("$lookup", .map es)] = d at h
    generalize he : Value.map [("$lookup", .map fs)] = e at h
    cases h with
    | kept _ plain => exact absurd (by decide) (plain _ _ hd.symm)
    | lookup keys fields pipeline =>
      cases hd
      cases he
      exact ⟨keys, fields, pipeline⟩
    | _ => simp at hd
  · intro h
    exact .lookup h.1 h.2.1 h.2.2

theorem survives_facet_iff {es fs : Dict} :
    Survives (.map [("$facet", es.toValue)]) (.map [("$facet", fs.toValue)]) ↔
      List.Forall₂ (fun e f => e.1 = f.1 ∧ Survives e.2 f.2) es fs := by
  rw [List.forall₂_iff_zip]
  constructor
  · intro h
    generalize hd : Value.map [("$facet", es.toValue)] = d at h
    generalize he : Value.map [("$facet", fs.toValue)] = e at h
    cases h with
    | kept _ plain => exact absurd (by decide) (plain _ _ hd.symm)
    | facet length names branches =>
      obtain rfl := facet_injective hd
      obtain rfl := facet_injective he
      exact ⟨length, fun hp => ⟨names _ hp, branches _ hp⟩⟩
    | _ => simp at hd
  · intro h
    exact .facet h.1 (fun _ hp => (h.2 hp).1) fun _ hp => (h.2 hp).2

theorem hasMisprint_lookup_iff {fields : Entries Value} :
    HasMisprint (.map [("$lookup", .map fields)]) ↔
      (Entries.get? fields "pipeline" = some (.list []) ∧ Entries.get? fields "let" = none ∨
        Entries.get? fields "pipeline" = none ∧ (Entries.get? fields "let").isSome = true) ∨
      ∃ documents, Entries.get? fields "pipeline" = some (.list documents) ∧
        ∃ d ∈ documents, HasMisprint d := by
  constructor
  · intro h
    generalize hd : Value.map [("$lookup", .map fields)] = d at h
    cases h with
    | dropped empty unbound =>
      cases hd
      exact .inl (.inl ⟨empty, unbound⟩)
    | added absent bound =>
      cases hd
      exact .inl (.inr ⟨absent, bound⟩)
    | lookup under mem misprint =>
      cases hd
      exact .inr ⟨_, under, _, mem, misprint⟩
    | facet => simp at hd
  · intro h
    rcases h with (⟨empty, unbound⟩ | ⟨absent, bound⟩) | ⟨documents, under, d, mem, misprint⟩
    · exact .dropped empty unbound
    · exact .added absent bound
    · exact .lookup under mem misprint

theorem hasMisprint_facet_iff {branches : Dict} :
    HasMisprint (.map [("$facet", branches.toValue)]) ↔
      ∃ branch ∈ branches, ∃ documents, branch.2 = .list documents ∧
        ∃ d ∈ documents, HasMisprint d := by
  constructor
  · intro h
    generalize hd : Value.map [("$facet", branches.toValue)] = d at h
    cases h with
    | facet under mem misprint =>
      obtain rfl := facet_injective hd
      exact ⟨_, under, _, rfl, _, mem, misprint⟩
    | _ => simp at hd
  · intro h
    obtain ⟨⟨name, _⟩, under, documents, rfl, d, mem, misprint⟩ := h
    exact .facet under mem misprint

theorem not_hasMisprint {v : Value}
    (h : ∀ operator argument, v = .map [(operator, argument)] → operator ∉ ["$facet", "$lookup"]) :
    ¬ HasMisprint v := by
  intro hmisprint
  cases hmisprint with
  | facet => exact absurd (by decide) (h _ _ rfl)
  | _ => exact absurd (by decide) (h _ _ rfl)

end Value

namespace Stage

open Value Outcome

def Keeps (document : Value) : Prop :=
  ∃ stage, ofDocument document = .ok stage ∧
    (document.Survives stage.toDocument ↔ ¬ document.HasMisprint)

theorem stagesIn_keeps {documents : List Value} (h : ∀ d ∈ documents, Keeps d) :
    ∃ stages, stagesIn (.list documents) = .ok stages ∧ stages.length = documents.length ∧
      ((Value.list documents).Survives (.list (toDocuments stages)) ↔
        ¬ ∃ d ∈ documents, d.HasMisprint) := by
  induction documents with
  | nil => exact ⟨[], rfl, rfl, iff_of_true (survives_list_iff.mpr .nil) (by simp)⟩
  | cons document rest ih =>
    obtain ⟨hdocument, hrest⟩ := List.forall_mem_cons.mp h
    obtain ⟨stage, hstage, hsurvives⟩ := hdocument
    obtain ⟨stages, hstages, hlength, hlater⟩ := ih hrest
    refine ⟨stage :: stages, ?_, by rw [List.length_cons, hlength, List.length_cons], ?_⟩
    · rw [stagesIn] at hstages ⊢
      rw [ofDocuments, hstage, hstages]
      rfl
    · rw [survives_list_iff] at hlater ⊢
      rw [toDocuments, List.forall₂_cons, hlater, hsurvives]
      simp

theorem keeps_kept {document : Value} (hmap : document.IsMap)
    (hplain : ∀ operator argument, document = .map [(operator, argument)] →
      operator ∉ ["$set", "$facet", "$lookup"])
    (stage : Stage) (hread : Reads document stage) (hwritten : stage.toDocument = document) :
    Keeps document := by
  refine ⟨stage, ofDocument_eq_ok_iff.mpr hread, iff_of_true ?_ ?_⟩
  · rw [hwritten]
    exact .kept hmap hplain
  · apply not_hasMisprint
    exact fun operator argument he hmem => hplain operator argument he (List.mem_cons_of_mem _ hmem)

theorem keeps_single {operator : String} {argument : Value}
    (hplain : operator ∉ ["$set", "$facet", "$lookup"]) (stage : Stage)
    (hread : Reads (.map [(operator, argument)]) stage)
    (hwritten : stage.toDocument = .map [(operator, argument)]) :
    Keeps (.map [(operator, argument)]) := by
  refine keeps_kept trivial ?_ stage hread hwritten
  intro _ _ he
  cases he
  exact hplain

theorem keeps_fields {operator : String} {v : Value}
    (hlisted : operator ∈ ["$match", "$sort", "$project", "$addFields", "$set"]) (hmap : v.IsMap) :
    Keeps (.map [(operator, v)]) := by
  obtain ⟨d, hd, rfl⟩ := hmap.toDict
  simp only [List.mem_cons, List.not_mem_nil, or_false] at hlisted
  rcases hlisted with rfl | rfl | rfl | rfl | rfl
  · exact keeps_single (by decide) (.matching d) ⟨_, rfl, hd⟩ rfl
  · exact keeps_single (by decide) (.sort d) ⟨_, rfl, hd⟩ rfl
  · exact keeps_single (by decide) (.project d) ⟨_, rfl, hd⟩ rfl
  · exact keeps_single (by decide) (.addFields d) ⟨_, _, rfl, .inl rfl, hd⟩ rfl
  · refine ⟨.addFields d, ofDocument_eq_ok_iff.mpr ⟨_, _, rfl, .inr rfl, hd⟩, ?_⟩
    refine iff_of_true (.renamed _) (not_hasMisprint ?_)
    intro _ _ he
    cases he
    decide

theorem keeps_plain {operator : String} (hlisted : operator ∈ ["$skip", "$limit", "$count"])
    (s : Scalar) : Keeps (.map [(operator, .scalar s)]) := by
  simp only [List.mem_cons, List.not_mem_nil, or_false] at hlisted
  rcases hlisted with rfl | rfl | rfl
  · exact keeps_single (by decide) (.skip _) rfl rfl
  · exact keeps_single (by decide) (.limit _) rfl rfl
  · exact keeps_single (by decide) (.count _) rfl rfl

theorem keeps_other {document : Value} (hmap : document.IsMap) (hunnamed : Unnamed document) :
    Keeps document := by
  obtain ⟨d, hd, rfl⟩ := hmap.toDict
  refine keeps_kept hmap ?_ (.raw d) ⟨hunnamed, hd⟩ rfl
  intro operator argument he hmem
  refine hunnamed operator argument he ?_
  simp only [List.mem_cons, List.not_mem_nil, or_false] at hmem
  rcases hmem with rfl | rfl | rfl <;> decide

theorem branchesIn_keeps {branches : Dict}
    (h : ∀ branch ∈ branches, ∃ documents, branch.2 = .list documents ∧ ∀ d ∈ documents, Keeps d) :
    ∃ stages, branchesIn branches = .ok stages ∧
      (List.Forall₂ (fun e f => e.1 = f.1 ∧ Survives e.2 f.2) branches (branchDocuments stages) ↔
        ¬ ∃ branch ∈ branches, ∃ documents, branch.2 = .list documents ∧
          ∃ d ∈ documents, d.HasMisprint) := by
  induction branches with
  | nil => exact ⟨[], rfl, iff_of_true .nil (by simp)⟩
  | cons branch rest ih =>
    obtain ⟨⟨documents, hlist, hdocuments⟩, hrest⟩ := List.forall_mem_cons.mp h
    obtain ⟨name, v⟩ := branch
    cases hlist
    obtain ⟨stages, hstages, _, hsurvives⟩ := stagesIn_keeps hdocuments
    obtain ⟨later, hlater, hsurvive⟩ := ih hrest
    refine ⟨(name, stages) :: later, ?_, ?_⟩
    · rw [branchesIn, hstages, hlater]
      rfl
    · rw [branchDocuments, List.forall₂_cons, hsurvives, hsurvive]
      simp

theorem keeps_facet {branches : Dict}
    (h : ∀ branch ∈ branches, ∃ documents, branch.2 = .list documents ∧ ∀ d ∈ documents, Keeps d) :
    Keeps (.map [("$facet", branches.toValue)]) := by
  obtain ⟨stages, hstages, hsurvives⟩ := branchesIn_keeps h
  have hread : Reads (.map [("$facet", branches.toValue)]) (.facet stages) :=
    ⟨_, branches, rfl, branches.asDict_toValue, hstages⟩
  refine ⟨.facet stages, ofDocument_eq_ok_iff.mpr hread, ?_⟩
  rw [toDocument, survives_facet_iff, hasMisprint_facet_iff, hsurvives]

theorem keys_lookupFields_sublist (source target localField foreignField : Value)
    (bindings : Option Dict) (pipeline : List Stage) :
    (Entries.keys (lookupFields source target bindings pipeline localField foreignField)).Sublist
      lookupKeys := by
  have hoptional (key : String) (v : Value) :
      (Entries.keys (optionalEntry key v)).Sublist [key] := by
    rw [optionalEntry]
    split
    · exact List.nil_sublist _
    · exact List.Sublist.refl _
  have hlet : (Entries.keys (bindingsField bindings)).Sublist ["let"] := by
    cases bindings with
    | none => exact List.nil_sublist _
    | some entries => exact List.Sublist.refl _
  have hpipeline : (Entries.keys (pipelineField bindings pipeline)).Sublist ["pipeline"] := by
    rw [pipelineField]
    split
    · exact List.nil_sublist _
    · exact List.Sublist.refl _
  simp only [lookupFields, Entries.keys, List.map_append]
  exact (((((List.Sublist.refl ["from"]).append (hoptional "localField" _)).append
    (hoptional "foreignField" _)).append hlet).append hpipeline).append (List.Sublist.refl ["as"])

theorem pipeline_survives_iff (bindings : Option Dict) {given : Option Value} {stages : List Stage}
    (h : given = none ∧ stages = [] ∨ ∃ documents, given = some (.list documents) ∧
      stages.length = documents.length ∧
      ((Value.list documents).Survives (.list (toDocuments stages)) ↔
        ¬ ∃ d ∈ documents, d.HasMisprint)) :
    ((given.isSome ↔ (if bindings.isNone && stages.isEmpty then none
        else some (Value.list (toDocuments stages))).isSome) ∧
      ∀ v w, given = some v → (if bindings.isNone && stages.isEmpty then none
        else some (Value.list (toDocuments stages))) = some w → v.Survives w) ↔
      ¬ ((given = some (.list []) ∧ bindings.map Dict.toValue = none ∨
          given = none ∧ (bindings.map Dict.toValue).isSome = true) ∨
        ∃ documents, given = some (.list documents) ∧ ∃ d ∈ documents, d.HasMisprint) := by
  rcases h with ⟨rfl, rfl⟩ | ⟨documents, rfl, hlength, hsurvives⟩
  · cases bindings <;> simp
  · cases stages with
    | nil =>
      obtain rfl := List.eq_nil_of_length_eq_zero hlength.symm
      have hempty : (Value.list []).Survives (.list (toDocuments [])) := hsurvives.mpr (by simp)
      cases bindings <;> simp [hempty]
    | cons stage rest =>
      have hnonempty : documents ≠ [] := by
        rintro rfl
        cases hlength
      simpa [hnonempty] using hsurvives

theorem optional_ofEntries (fields : Entries Value) (key : String) :
    optional (.ofEntries fields) key = (Entries.get? fields key).getD .null := by
  rw [optional, Dict.get?_ofEntries]

section Lookup

variable {fields : Entries Value} (form : LookupForm fields)

include form

theorem bindings_of_form :
    ∃ bindings, bindingsOf (optional (.ofEntries fields) "let") = .ok bindings ∧
      bindings.map Dict.toValue = Entries.get? fields "let" := by
  rw [optional_ofEntries]
  cases h : Entries.get? fields "let" with
  | none => exact ⟨none, rfl, rfl⟩
  | some v =>
    obtain ⟨d, _, rfl⟩ := (form.bindings v h).toDict
    exact ⟨some d, bindingsOf_toValue d, rfl⟩

theorem pipeline_of_form
    (h : ∀ documents, Entries.get? fields "pipeline" = some (.list documents) →
      ∀ d ∈ documents, Keeps d) :
    ∃ stages, pipelineIn (Dict.ofEntries fields) = .ok stages ∧
      (Entries.get? fields "pipeline" = none ∧ stages = [] ∨
        ∃ documents, Entries.get? fields "pipeline" = some (.list documents) ∧
          stages.length = documents.length ∧
          ((Value.list documents).Survives (.list (toDocuments stages)) ↔
            ¬ ∃ d ∈ documents, d.HasMisprint)) := by
  rw [pipelineIn_eq, Dict.get?_ofEntries]
  cases hv : Entries.get? fields "pipeline" with
  | none => exact ⟨[], rfl, .inl ⟨rfl, rfl⟩⟩
  | some v =>
    obtain ⟨documents, rfl⟩ := form.pipeline v hv
    obtain ⟨stages, hstages, hlength, hsurvives⟩ := stagesIn_keeps (h documents hv)
    exact ⟨stages, hstages, .inr ⟨documents, rfl, hlength, hsurvives⟩⟩

theorem get?_lookupFields_of_form {source target localField foreignField : Value}
    {bindings : Option Dict} (hsource : Entries.get? fields "from" = some source)
    (htarget : Entries.get? fields "as" = some target)
    (hlocalField : localField = (Entries.get? fields "localField").getD .null)
    (hforeignField : foreignField = (Entries.get? fields "foreignField").getD .null)
    (hbindings : bindings.map Dict.toValue = Entries.get? fields "let") (stages : List Stage)
    {key : String} (hkey : key ≠ "pipeline") :
    Entries.get? fields key =
      Entries.get? (lookupFields source target bindings stages localField foreignField) key := by
  have htext {key : String} {given : Value} (hgiven : given = (Entries.get? fields key).getD .null)
      (h : ∀ v, Entries.get? fields key = some v → v.isText = true) :
      Entries.get? fields key = if given.isNull then none else some given := by
    rw [hgiven]
    cases hv : Entries.get? fields key with
    | none => rfl
    | some v =>
      have htext := h v hv
      unfold Value.isText at htext
      split at htext
      · rfl
      · cases htext
  have hget := get?_lookupFields source target localField foreignField bindings stages
  by_cases hmem : key ∈ lookupKeys
  · simp only [lookupKeys, List.mem_cons, List.not_mem_nil, or_false, hkey, false_or] at hmem
    rcases hmem with rfl | rfl | rfl | rfl | rfl
    · exact hsource.trans (hget "from").symm
    · exact (htext hlocalField form.localField).trans (hget "localField").symm
    · exact (htext hforeignField form.foreignField).trans (hget "foreignField").symm
    · exact hbindings.symm.trans (hget "let").symm
    · exact htarget.trans (hget "as").symm
  · have habsent : Entries.get? fields key = none := by
      rw [← Option.not_isSome_iff_eq_none, ← Entries.mem_keys_iff]
      exact fun h => hmem (form.named key h)
    simp only [lookupKeys, List.mem_cons, List.not_mem_nil, or_false, not_or] at hmem
    simp [habsent, hget, hmem]

/-- The fields that are written are those that are there exactly if the pipeline is among both or
among neither. -/
theorem keys_perm_iff {fields' : Entries Value} (hkeys : (Entries.keys fields').Sublist lookupKeys)
    (hfields : ∀ key, key ≠ "pipeline" → Entries.get? fields key = Entries.get? fields' key) :
    (Entries.keys fields).Perm (Entries.keys fields') ↔
      ((Entries.get? fields "pipeline").isSome ↔ (Entries.get? fields' "pipeline").isSome) := by
  have hnodup : (Entries.keys fields').Nodup := hkeys.nodup (by decide)
  rw [List.perm_ext_iff_of_nodup form.distinct hnodup]
  simp only [Entries.mem_keys_iff]
  constructor
  · exact fun h => h "pipeline"
  · intro h key
    by_cases hkey : key = "pipeline"
    · rw [hkey]
      exact h
    · rw [hfields key hkey]

theorem keeps_lookup
    (h : ∀ documents, Entries.get? fields "pipeline" = some (.list documents) →
      ∀ d ∈ documents, Keeps d) : Keeps (.map [("$lookup", .map fields)]) := by
  obtain ⟨source, hsource⟩ := Option.isSome_iff_exists.mp (Entries.mem_keys_iff.mp form.source)
  obtain ⟨target, htarget⟩ := Option.isSome_iff_exists.mp (Entries.mem_keys_iff.mp form.target)
  obtain ⟨bindings, hread, hbindings⟩ := bindings_of_form form
  obtain ⟨stages, hstages, hpipeline⟩ := pipeline_of_form form h
  have hfields (key : String) (hkey : key ≠ "pipeline") :=
    get?_lookupFields_of_form form hsource htarget (optional_ofEntries fields "localField")
      (optional_ofEntries fields "foreignField") hbindings stages hkey
  refine ⟨.lookup source target bindings stages _ _, ofDocument_eq_ok_iff.mpr
    ⟨.map fields, .ofEntries fields, rfl, rfl, (Dict.get?_ofEntries _ _).trans hsource,
      (Dict.get?_ofEntries _ _).trans htarget, hstages, hread, rfl, rfl⟩, ?_⟩
  rw [toDocument_lookup, survives_lookup_iff, hasMisprint_lookup_iff,
    keys_perm_iff form (keys_lookupFields_sublist ..) hfields, ← hbindings, and_iff_right hfields,
    get?_lookupFields]
  exact pipeline_survives_iff bindings hpipeline

end Lookup

/-- What is read of a document in its form is written as it was, unless the document holds a lookup
with an empty pipeline and no variables, or one with variables and no pipeline. -/
theorem survives_iff {document : Value} (h : document.StageDocument) :
    ∃ stage, ofDocument document = .ok stage ∧
      (document.Survives stage.toDocument ↔ ¬ document.HasMisprint) := by
  change Keeps document
  induction h with
  | fields listed isMap => exact keeps_fields listed isMap
  | plain listed s => exact keeps_plain listed s
  | facet lists documents ih =>
    apply keeps_facet
    intro branch hbranch
    obtain ⟨documents, hlist⟩ := lists branch hbranch
    exact ⟨documents, hlist, ih branch.1 documents (hlist ▸ hbranch)⟩
  | lookup form documents ih => exact keeps_lookup form ih
  | other isMap unnamed => exact keeps_other isMap unnamed

theorem survives_iff_lookup_in_facet :
    let fields : Entries Value := [("as", .text "u"), ("let", .map [("v", .text "$users")]),
      ("pipeline", .list [.map [("$set", .map [("n", .int 1)])]]), ("from", .text "users")]
    let joined : Value :=
      .list [.map [("$lookup", .map fields)], .map [("$unwind", .text "$u"), ("$limit", .int 1)]]
    let document : Value := .map [("$facet", .map [("joined", joined)])]
    document.StageDocument ∧ ¬ document.HasMisprint ∧
      ∃ stage, ofDocument document = .ok stage ∧ document.Survives stage.toDocument := by
  intro fields joined document
  have hlookup : (Value.map [("$lookup", .map fields)]).StageDocument := by
    refine .lookup ⟨by decide, by decide, by decide, by decide, nofun, nofun, ?_, ?_⟩ ?_
    · intro v hv
      cases hv
      trivial
    · intro v hv
      cases hv
      exact ⟨_, rfl⟩
    · intro documents hdocuments d hd
      cases hdocuments
      cases List.mem_singleton.mp hd
      exact .fields (by decide) trivial
  have hfacet : document = .map [("$facet", Dict.toValue [(.text "joined", joined)])] := rfl
  have hdocument : document.StageDocument := by
    rw [hfacet]
    refine .facet ?_ ?_
    · intro branch hbranch
      cases List.mem_singleton.mp hbranch
      exact ⟨_, rfl⟩
    · intro name documents hbranch d hd
      obtain ⟨-, rfl⟩ : name = .text "joined" ∧ documents = _ := by
        simpa [joined] using hbranch
      rcases List.mem_pair.mp hd with rfl | rfl
      · exact hlookup
      · exact .other trivial fun _ _ he => by simp at he
  have hset : ¬ (Value.map [("$set", .map [("n", .int 1)])]).HasMisprint :=
    not_hasMisprint fun _ _ he => by cases he; decide
  have hunwind :
      ¬ (Value.map [("$unwind", .text "$u"), ("$limit", .int 1)]).HasMisprint :=
    not_hasMisprint fun _ _ he => by simp at he
  have hprinted : ¬ document.HasMisprint := by
    rw [hfacet, hasMisprint_facet_iff]
    simp [joined, fields, hasMisprint_lookup_iff, Entries.get?, hset, hunwind]
  obtain ⟨stage, hstage, hsurvives⟩ := survives_iff hdocument
  exact ⟨hdocument, hprinted, stage, hstage, hsurvives.mpr hprinted⟩

/-- A lookup that takes all documents of another collection does not survive. -/
theorem ofDocument_drops_pipeline :
    let fields : Entries Value :=
      [("from", .text "users"), ("pipeline", .list []), ("as", .text "u")]
    let stage : Stage := .lookup (.text "users") (.text "u") none [] .null .null
    (Value.map [("$lookup", .map fields)]).StageDocument ∧
      ofDocument (.map [("$lookup", .map fields)]) = .ok stage ∧
      stage.toDocument = .map [("$lookup", .map [("from", .text "users"), ("as", .text "u")])] ∧
      ¬ (Value.map [("$lookup", .map fields)]).Survives stage.toDocument := by
  intro fields stage
  have hwritten : stage.toDocument =
      .map [("$lookup", .map [("from", .text "users"), ("as", .text "u")])] := rfl
  refine ⟨.lookup ⟨by decide, by decide, by decide, by decide, nofun, nofun, nofun, ?_⟩ ?_, rfl,
    hwritten, ?_⟩
  · intro v hv
    cases hv
    exact ⟨_, rfl⟩
  · intro documents hdocuments d hd
    cases hdocuments
    cases hd
  · rw [hwritten, survives_lookup_iff]
    exact fun h => absurd h.1.length_eq (by decide)

end Stage

end QueryPipeline
