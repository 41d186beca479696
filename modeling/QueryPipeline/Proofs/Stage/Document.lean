import QueryPipeline.Proofs.Entries
import QueryPipeline.Proofs.Outcome
import QueryPipeline.Proofs.Value.Map
import QueryPipeline.Stage.Document

namespace QueryPipeline

namespace Stage

open Outcome

/-- The operators of which a document is read as a stage of their kind. -/
def operators : List String :=
  ["$match", "$sort", "$project", "$skip", "$limit", "$addFields", "$set", "$lookup", "$count",
    "$facet"]

def Unnamed (document : Value) : Prop :=
  ∀ operator argument, document = .map [(operator, argument)] → operator ∉ operators

/-- How a document has to be written to be read as a given stage. -/
def Reads (document : Value) : Stage → Prop
  | .matching criteria => ∃ v, document = .map [("$match", v)] ∧ v.toDict = .ok criteria
  | .sort spec => ∃ v, document = .map [("$sort", v)] ∧ v.toDict = .ok spec
  | .project projection => ∃ v, document = .map [("$project", v)] ∧ v.toDict = .ok projection
  | .skip n => document = .map [("$skip", n)]
  | .limit n => document = .map [("$limit", n)]
  | .addFields fields => ∃ operator v, document = .map [(operator, v)] ∧
      (operator = "$addFields" ∨ operator = "$set") ∧ v.toDict = .ok fields
  | .lookup source target bindings pipeline localField foreignField => ∃ v fields,
      document = .map [("$lookup", v)] ∧ v.asDict = .ok fields ∧
      Entries.get? fields (.text "from") = some source ∧
      Entries.get? fields (.text "as") = some target ∧
      pipelineIn fields = .ok pipeline ∧
      bindingsOf (optional fields "let") = .ok bindings ∧
      localField = optional fields "localField" ∧ foreignField = optional fields "foreignField"
  | .count field => document = .map [("$count", field)]
  | .facet branches => ∃ v entries, document = .map [("$facet", v)] ∧ v.asDict = .ok entries ∧
      branchesIn entries = .ok branches
  | .raw d => Unnamed document ∧ document.toDict = .ok d

theorem required_eq_ok_iff {fields : Dict} {key : String} {v : Value} :
    required fields key = .ok v ↔ Entries.get? fields (.text key) = some v := by
  rw [required]
  cases Entries.get? fields (.text key) <;> simp

theorem pipelineIn_ofEntries (fields : Entries Value) :
    pipelineIn (Dict.ofEntries fields) = pipelineUnder fields := by
  induction fields with
  | nil => rfl
  | cons e rest ih =>
    have hcons : pipelineIn (Dict.ofEntries (e :: rest)) =
        if (Scalar.text e.1 == "pipeline") = true then stagesIn e.2
        else pipelineIn (Dict.ofEntries rest) := rfl
    rw [hcons, ih, pipelineUnder, Scalar.text_beq_text]
    simp only [beq_iff_eq]

theorem branchesIn_ofEntries (branches : Entries Value) :
    branchesIn (Dict.ofEntries branches) = branchesUnder branches := by
  induction branches with
  | nil => rfl
  | cons e rest ih =>
    have hcons : branchesIn (Dict.ofEntries (e :: rest)) = (do
        let stages ← stagesIn e.2
        return (.text e.1, stages) :: (← branchesIn (Dict.ofEntries rest))) := rfl
    rw [hcons, ih, branchesUnder]

theorem lookupOf_eq {argument : Value} {fields : Dict} (h : argument.asDict = .ok fields) :
    lookupOf argument = lookupWith fields (pipelineIn fields) := by
  cases argument with
  | map entries =>
    cases h
    rw [lookupOf, pipelineIn_ofEntries]
  | keyed entries =>
    cases h
    rw [lookupOf]
  | _ => cases h

theorem facetOf_eq {argument : Value} {entries : Dict} (h : argument.asDict = .ok entries) :
    facetOf argument = do return .facet (← branchesIn entries) := by
  cases argument with
  | map entries =>
    cases h
    rw [facetOf, branchesIn_ofEntries]
  | keyed entries =>
    cases h
    rw [facetOf]
  | _ => cases h

theorem reads_of_lookupOf {argument : Value} {stage : Stage} (h : lookupOf argument = .ok stage) :
    Reads (.map [("$lookup", argument)]) stage := by
  obtain ⟨fields, hfields⟩ : ∃ fields, argument.asDict = .ok fields := by
    cases argument <;> first | exact ⟨_, rfl⟩ | cases h
  rw [lookupOf_eq hfields] at h
  obtain ⟨source, hsource, h⟩ := bind_eq_ok_iff.mp h
  obtain ⟨target, htarget, h⟩ := bind_eq_ok_iff.mp h
  obtain ⟨pipeline, hpipeline, h⟩ := bind_eq_ok_iff.mp h
  obtain ⟨bindings, hbindings, h⟩ := bind_eq_ok_iff.mp h
  cases h
  exact ⟨argument, fields, rfl, hfields, required_eq_ok_iff.mp hsource,
    required_eq_ok_iff.mp htarget, hpipeline, hbindings, rfl, rfl⟩

theorem reads_of_facetOf {argument : Value} {stage : Stage} (h : facetOf argument = .ok stage) :
    Reads (.map [("$facet", argument)]) stage := by
  obtain ⟨entries, hentries⟩ : ∃ entries, argument.asDict = .ok entries := by
    cases argument <;> first | exact ⟨_, rfl⟩ | cases h
  rw [facetOf_eq hentries] at h
  obtain ⟨branches, hbranches, h⟩ := bind_eq_ok_iff.mp h
  cases h
  exact ⟨argument, entries, rfl, hentries, hbranches⟩

theorem ofDocument_of_unnamed {document : Value} (h : Unnamed document) :
    ofDocument document = rawOf document := by
  by_cases hsingle : ∃ operator argument, document = .map [(operator, argument)]
  · obtain ⟨operator, argument, rfl⟩ := hsingle
    have hunknown := h operator argument rfl
    simp only [operators, List.mem_cons, List.not_mem_nil, or_false, not_or] at hunknown
    simp [ofDocument, rawOf, Value.toDict, Dict.ofEntries, hunknown]
  · rw [ofDocument]
    exact fun operator argument he => hsingle ⟨operator, argument, he⟩

theorem reads_of_named {operator : String} {argument : Value} {stage : Stage}
    (hnamed : operator ∈ operators) (h : ofDocument (.map [(operator, argument)]) = .ok stage) :
    Reads (.map [(operator, argument)]) stage := by
  -- The operators are asked for in the order in which `operators` lists them.
  rw [ofDocument] at h
  iterate 3
    split at h
    · obtain ⟨d, hd, rfl⟩ := map_eq_ok_iff.mp h
      subst operator
      exact ⟨argument, rfl, hd⟩
  iterate 2
    split at h
    · cases h
      subst operator
      rfl
  split at h
  · obtain ⟨d, hd, rfl⟩ := map_eq_ok_iff.mp h
    exact ⟨operator, argument, rfl, ‹_›, hd⟩
  split at h
  · subst operator
    exact reads_of_lookupOf h
  split at h
  · cases h
    subst operator
    rfl
  split at h
  · subst operator
    exact reads_of_facetOf h
  · simp_all [operators]

/-- These are all the readings of a document. -/
theorem ofDocument_eq_ok_iff {document : Value} {stage : Stage} :
    ofDocument document = .ok stage ↔ Reads document stage := by
  constructor
  · intro h
    by_cases hunnamed : Unnamed document
    · rw [ofDocument_of_unnamed hunnamed, rawOf] at h
      obtain ⟨d, hd, rfl⟩ := map_eq_ok_iff.mp h
      exact ⟨hunnamed, hd⟩
    · simp only [Unnamed, not_forall, not_not] at hunnamed
      obtain ⟨operator, argument, rfl, hnamed⟩ := hunnamed
      exact reads_of_named hnamed h
  · intro h
    cases stage with
    | matching criteria =>
      obtain ⟨v, rfl, hv⟩ := h
      simp [ofDocument, hv]
    | sort spec =>
      obtain ⟨v, rfl, hv⟩ := h
      simp [ofDocument, hv]
    | project projection =>
      obtain ⟨v, rfl, hv⟩ := h
      simp [ofDocument, hv]
    | skip n =>
      cases h
      simp [ofDocument]
    | limit n =>
      cases h
      simp [ofDocument]
    | addFields fields =>
      obtain ⟨operator, v, rfl, rfl | rfl, hv⟩ := h <;> simp [ofDocument, hv]
    | lookup source target bindings pipeline localField foreignField =>
      obtain ⟨v, fields, rfl, hfields, hsource, htarget, hpipeline, hbindings, rfl, rfl⟩ := h
      have hread : ofDocument (.map [("$lookup", v)]) = lookupOf v := by simp [ofDocument]
      rw [hread, lookupOf_eq hfields, lookupWith, required_eq_ok_iff.mpr hsource,
        required_eq_ok_iff.mpr htarget, hpipeline, hbindings]
      rfl
    | count field =>
      cases h
      simp [ofDocument]
    | facet branches =>
      obtain ⟨v, entries, rfl, hentries, hbranches⟩ := h
      have hread : ofDocument (.map [("$facet", v)]) = facetOf v := by simp [ofDocument]
      rw [hread, facetOf_eq hentries, hbranches]
      rfl
    | raw d =>
      obtain ⟨hunnamed, hd⟩ := h
      rw [ofDocument_of_unnamed hunnamed, rawOf, hd]
      rfl

theorem bindingsOf_toValue (d : Dict) : bindingsOf d.toValue = .ok (some d) := by
  have hdict := d.toDict_toValue
  unfold bindingsOf
  split
  · rename_i hnull
    rw [hnull] at hdict
    cases hdict
  · rw [hdict]
    rfl

theorem pipelineIn_eq (fields : Dict) :
    pipelineIn fields = match Entries.get? fields (.text "pipeline") with
      | some v => stagesIn v
      | none => .ok [] := by
  induction fields with
  | nil => rfl
  | cons e rest ih =>
    obtain ⟨key, v⟩ := e
    rw [pipelineIn, Entries.get?, ih]
    split <;> rfl

theorem ofDocuments_eq_ok_iff {documents : List Value} {stages : List Stage} :
    ofDocuments documents = .ok stages ↔
      List.Forall₂ (fun document stage => ofDocument document = .ok stage) documents stages := by
  have hmap : ofDocuments documents = documents.mapM ofDocument := by
    induction documents with
    | nil => rfl
    | cons document rest ih => rw [ofDocuments, List.mapM_cons, ih]
  rw [hmap, mapM_eq_ok_iff]

theorem branchesIn_eq_ok_iff {entries : Dict} {branches : List (Scalar × List Stage)} :
    branchesIn entries = .ok branches ↔
      List.Forall₂ (fun e branch => e.1 = branch.1 ∧ stagesIn e.2 = .ok branch.2) entries
        branches := by
  induction entries generalizing branches with
  | nil => simp [branchesIn, eq_comm]
  | cons e rest ih =>
    obtain ⟨name, v⟩ := e
    rw [branchesIn, bind_eq_ok_iff, List.forall₂_cons_left_iff]
    constructor
    · intro h
      obtain ⟨stages, hstages, h⟩ := h
      obtain ⟨later, hlater, h⟩ := bind_eq_ok_iff.mp h
      cases h
      exact ⟨(name, stages), later, ⟨rfl, hstages⟩, ih.mp hlater, rfl⟩
    · intro h
      obtain ⟨⟨_, stages⟩, later, ⟨rfl, hstages⟩, hlater, rfl⟩ := h
      exact ⟨stages, hstages, bind_eq_ok_iff.mpr ⟨later, ih.mpr hlater, rfl⟩⟩

theorem toDocuments_eq (stages : List Stage) : toDocuments stages = stages.map toDocument := by
  induction stages with
  | nil => rfl
  | cons stage rest ih => rw [toDocuments, ih, List.map_cons]

theorem branchDocuments_eq (branches : List (Scalar × List Stage)) :
    branchDocuments branches =
      branches.map fun branch => (branch.1, .list (branch.2.map toDocument)) := by
  induction branches with
  | nil => rfl
  | cons branch rest ih => rw [branchDocuments, ih, toDocuments_eq, List.map_cons]

def bindingsField : Option Dict → Entries Value
  | none => []
  | some entries => [("let", entries.toValue)]

def pipelineField (bindings : Option Dict) (pipeline : List Stage) : Entries Value :=
  if bindings.isNone && pipeline.isEmpty then [] else [("pipeline", .list (toDocuments pipeline))]

def lookupFields (source target : Value) (bindings : Option Dict) (pipeline : List Stage)
    (localField foreignField : Value) : Entries Value :=
  [("from", source)] ++ optionalEntry "localField" localField ++
    optionalEntry "foreignField" foreignField ++ bindingsField bindings ++
    pipelineField bindings pipeline ++ [("as", target)]

section Lookup

variable (source target localField foreignField : Value) (bindings : Option Dict)
  (pipeline : List Stage)

theorem toDocument_lookup :
    (lookup source target bindings pipeline localField foreignField).toDocument =
      .map [("$lookup",
        .map (lookupFields source target bindings pipeline localField foreignField))] := by
  cases bindings <;> rw [toDocument, lookupFields, bindingsField, pipelineField]

theorem get?_singleton (key other : String) (v : Value) :
    Entries.get? [(key, v)] other = if other = key then some v else none := by
  simp only [Entries.get?, beq_iff_eq, eq_comm (a := key)]

theorem get?_optionalEntry (key other : String) (v : Value) :
    Entries.get? (optionalEntry key v) other =
      if other = key then (if v.isNull then none else some v) else none := by
  rw [optionalEntry]
  split
  · simp
  · rw [get?_singleton]

theorem get?_lookupFields (key : String) :
    Entries.get? (lookupFields source target bindings pipeline localField foreignField) key =
      if key = "from" then some source
      else if key = "localField" then if localField.isNull then none else some localField
      else if key = "foreignField" then if foreignField.isNull then none else some foreignField
      else if key = "let" then bindings.map Dict.toValue
      else if key = "pipeline" then
        if bindings.isNone && pipeline.isEmpty then none
        else some (.list (toDocuments pipeline))
      else if key = "as" then some target
      else none := by
  have hlet : Entries.get? (bindingsField bindings) key =
      if key = "let" then bindings.map Dict.toValue else none := by
    cases bindings with
    | none => simp [bindingsField]
    | some entries => rw [bindingsField, get?_singleton, Option.map_some]
  have hpipeline : Entries.get? (pipelineField bindings pipeline) key =
      if key = "pipeline" then
        if bindings.isNone && pipeline.isEmpty then none
        else some (.list (toDocuments pipeline))
      else none := by
    rw [pipelineField]
    split
    · simp
    · rw [get?_singleton]
  simp only [lookupFields, Entries.get?_append, get?_singleton, get?_optionalEntry, hlet, hpipeline]
  grind

/-- An entry that is left out is null when it is looked up. -/
theorem optional_of_get?_eq {fields : Dict} {key : String} {v : Value}
    (h : Entries.get? fields (.text key) = if v.isNull then none else some v) :
    optional fields key = v := by
  rw [optional, h]
  split
  · rename_i hnull
    unfold Value.isNull at hnull
    split at hnull
    · rfl
    · cases hnull
  · rfl

end Lookup

end Stage

end QueryPipeline
