import QueryPipeline.Proofs.Stage.Document

namespace QueryPipeline

/-- A stage document: a map, and so are all documents in the pipeline of a lookup or in the branches
of a facet within it. -/
inductive Value.Documented : Value → Prop where
  | map {entries : Entries Value}
    (pipeline : ∀ v fields documents, entries = [("$lookup", v)] → v.asDict = .ok fields →
      Entries.get? fields (.text "pipeline") = some (.list documents) →
      ∀ d ∈ documents, Documented d)
    (branches : ∀ v fields name documents, entries = [("$facet", v)] → v.asDict = .ok fields →
      (name, .list documents) ∈ fields → ∀ d ∈ documents, Documented d) :
    Documented (.map entries)
  | keyed {d : Dict} (h : (Value.keyed d).IsMap) : Documented (.keyed d)

theorem Value.Documented.of_unnested {entries : Entries Value}
    (hlookup : ∀ v, entries ≠ [("$lookup", v)]) (hfacet : ∀ v, entries ≠ [("$facet", v)]) :
    (Value.map entries).Documented :=
  .map (fun v _ _ he => absurd he (hlookup v)) fun v _ _ _ he => absurd he (hfacet v)

namespace Stage

open Outcome

def ReadsBack (stage : Stage) : Prop :=
  ofDocument stage.toDocument = .ok stage

theorem ofDocuments_toDocuments {stages : List Stage} (h : ∀ s ∈ stages, s.ReadsBack) :
    ofDocuments (toDocuments stages) = .ok stages := by
  rw [toDocuments_eq, ofDocuments_eq_ok_iff, List.forall₂_map_left_iff, List.forall₂_same]
  exact h

theorem branchesIn_branchDocuments {branches : List (Scalar × List Stage)}
    (h : ∀ branch ∈ branches, ∀ s ∈ branch.2, s.ReadsBack) :
    branchesIn (branchDocuments branches) = .ok branches := by
  rw [branchDocuments_eq, branchesIn_eq_ok_iff, List.forall₂_map_left_iff, List.forall₂_same]
  intro branch hbranch
  refine ⟨rfl, ?_⟩
  rw [← toDocuments_eq, stagesIn, ofDocuments_toDocuments (h branch hbranch)]

theorem readsBack_lookup {source target localField foreignField : Value} {bindings : Option Dict}
    {pipeline : List Stage} (h : ∀ s ∈ pipeline, s.ReadsBack) :
    (lookup source target bindings pipeline localField foreignField).ReadsBack := by
  have hget (key : String) := (Dict.get?_ofEntries _ key).trans
    (get?_lookupFields source target localField foreignField bindings pipeline key)
  rw [ReadsBack, toDocument_lookup, ofDocument_eq_ok_iff]
  refine ⟨_, _, rfl, rfl, hget "from", hget "as", ?stages, ?bound,
    (optional_of_get?_eq (hget "localField")).symm,
    (optional_of_get?_eq (hget "foreignField")).symm⟩
  case stages =>
    rw [pipelineIn_eq, hget "pipeline"]
    cases hempty : bindings.isNone && pipeline.isEmpty with
    | true =>
      rw [Bool.and_eq_true, List.isEmpty_iff] at hempty
      rw [hempty.2]
      rfl
    | false => exact ofDocuments_toDocuments h
  case bound =>
    have hlet := hget "let"
    rw [optional, hlet]
    cases bindings with
    | none => rfl
    | some d => exact bindingsOf_toValue d

theorem readsBack_facet {branches : List (Scalar × List Stage)}
    (h : ∀ branch ∈ branches, ∀ s ∈ branch.2, s.ReadsBack) : (facet branches).ReadsBack := by
  rw [ReadsBack, toDocument, ofDocument_eq_ok_iff]
  exact ⟨_, _, rfl, Dict.asDict_toValue _, branchesIn_branchDocuments h⟩

theorem readsBack_raw {d : Dict} (h : Unnamed d.toValue) : (raw d).ReadsBack := by
  rw [ReadsBack, toDocument, ofDocument_eq_ok_iff]
  exact ⟨h, d.toDict_toValue⟩

theorem readsBack_of_unnamed {document : Value} (hmap : document.IsMap)
    (hunnamed : Unnamed document) {stage : Stage} (h : ofDocument document = .ok stage) : stage.ReadsBack := by
  obtain ⟨d, hd, hvalue⟩ := hmap.toDict
  rw [ofDocument_of_unnamed hunnamed, rawOf, hd] at h
  cases h
  apply readsBack_raw
  rwa [hvalue]

theorem scalar_of_mem_items {v : Value} (hlist : ∀ items, v ≠ .list items) {items : List Value}
    (h : v.items = .ok items) : ∀ item ∈ items, ∃ s, item = .scalar s := by
  intro item hitem
  unfold Value.items at h
  split at h
  · exact absurd rfl (hlist _)
  · cases h
    obtain ⟨c, _, rfl⟩ := List.mem_map.mp hitem
    exact ⟨_, rfl⟩
  · cases h
    obtain ⟨e, _, rfl⟩ := List.mem_map.mp hitem
    exact ⟨_, rfl⟩
  · cases h
    obtain ⟨e, _, rfl⟩ := List.mem_map.mp hitem
    exact ⟨_, rfl⟩
  · cases h

/-- Only the empty text stands for entries, and for none. -/
theorem toDict_scalar {s : Scalar} {d : Dict} (h : (Value.scalar s).toDict = .ok d) : d = [] := by
  obtain ⟨items, hitems, h⟩ := bind_eq_ok_iff.mp h
  cases s with
  | text t =>
    cases hitems
    cases hcs : t.toList with
    | nil =>
      rw [hcs] at h
      cases h
      rfl
    | cons c cs =>
      have hentry : (Value.text (String.ofList [c])).asEntry = .error .notPair := by
        simp [Value.asEntry, Value.items, bind, Except.bind]
      rw [hcs, List.map_cons, List.mapM_cons, hentry] at h
      cases h
  | _ => cases hitems

/-- The stages of a list of documents are read back when each of the documents is; what holds
stages and is no list holds empty ones. -/
theorem readsBack_of_stagesIn {v : Value} {stages : List Stage}
    (hdocuments : ∀ documents, v = .list documents → ∀ d ∈ documents, ∀ s, ofDocument d = .ok s →
      s.ReadsBack)
    (h : stagesIn v = .ok stages) : ∀ s ∈ stages, s.ReadsBack := by
  intro s hs
  unfold stagesIn at h
  split at h
  · rename_i documents
    obtain ⟨d, hd, hread⟩ := exists_of_mem_right (ofDocuments_eq_ok_iff.mp h) hs
    exact hdocuments documents rfl d hd s hread
  · rename_i hlist
    obtain ⟨items, hitems, h⟩ := bind_eq_ok_iff.mp h
    obtain ⟨item, hitem, hraw⟩ := mem_of_mapM_eq_ok h hs
    obtain ⟨key, rfl⟩ := scalar_of_mem_items hlist hitems item hitem
    obtain ⟨d, hd, rfl⟩ := map_eq_ok_iff.mp hraw
    rw [toDict_scalar hd]
    exact readsBack_raw (by rintro _ _ ⟨⟩)

/-- A stage that was read from a document is read again from the document that it is written as. -/
theorem ofDocument_toDocument {document : Value} (hdocument : document.Documented)
    {stage : Stage} (h : ofDocument document = .ok stage) :
    ofDocument stage.toDocument = .ok stage := by
  change stage.ReadsBack
  induction hdocument generalizing stage with
  | @keyed entries hmap =>
    have hunnamed : Unnamed (.keyed entries) := by
      intro _ _ he
      cases he
    exact readsBack_of_unnamed hmap hunnamed h
  | @map entries pipeline branches hpipeline hbranches =>
    have hreads := ofDocument_eq_ok_iff.mp h
    cases stage with
    | matching criteria => exact ofDocument_eq_ok_iff.mpr ⟨_, rfl, criteria.toDict_toValue⟩
    | sort spec => exact ofDocument_eq_ok_iff.mpr ⟨_, rfl, spec.toDict_toValue⟩
    | project projection => exact ofDocument_eq_ok_iff.mpr ⟨_, rfl, projection.toDict_toValue⟩
    | skip n => exact ofDocument_eq_ok_iff.mpr rfl
    | limit n => exact ofDocument_eq_ok_iff.mpr rfl
    | addFields fields =>
      exact ofDocument_eq_ok_iff.mpr ⟨_, _, rfl, .inl rfl, fields.toDict_toValue⟩
    | count field => exact ofDocument_eq_ok_iff.mpr rfl
    | lookup source target bindings stages localField foreignField =>
      obtain ⟨v, fields, hentries, hfields, _, _, hstages, _⟩ := hreads
      cases hentries
      apply readsBack_lookup
      rw [pipelineIn_eq] at hstages
      split at hstages
      · rename_i v hv
        refine readsBack_of_stagesIn (fun documents he d hd s hs => ?_) hstages
        rw [he] at hv
        exact hpipeline _ fields documents rfl hfields hv d hd hs
      · cases hstages
        intro s hs
        cases hs
    | facet stages =>
      obtain ⟨v, fields, hentries, hfields, hstages⟩ := hreads
      cases hentries
      apply readsBack_facet
      intro branch hbranch
      obtain ⟨e, he, _, hstages⟩ := exists_of_mem_right (branchesIn_eq_ok_iff.mp hstages) hbranch
      refine readsBack_of_stagesIn (fun documents hlist d hd s hs => ?_) hstages
      exact hbranches v fields e.1 documents rfl hfields (hlist ▸ he) d hd hs
    | raw d =>
      have hmap : (Value.map entries).IsMap := trivial
      exact readsBack_of_unnamed hmap hreads.1 h

theorem ofDocument_toDocument_nested :
    let bound : Value := .list [.list [.text "v", .text "$users"]]
    let lookup : Value := .map [("$lookup", .map [("as", .text "users"), ("let", bound),
      ("pipeline", .list [.map [("$set", .map [("n", .int 1)])], .map []]),
      ("from", .text "users")])]
    let raw : Value := .map [("$unwind", .text "$users"), ("$limit", .int 1)]
    let document : Value :=
      .map [("$facet", .map [("recent", .list [lookup, raw]), ("none", .text "")])]
    let stage : Stage :=
      .facet [("recent", [
          .lookup (.text "users") (.text "users") (some [("v", .text "$users")])
            [.addFields [("n", .int 1)], .raw []] .null .null,
          .raw [("$unwind", .text "$users"), ("$limit", .int 1)]]),
        ("none", [])]
    document.Documented ∧ ofDocument document = .ok stage ∧
      ofDocument stage.toDocument = .ok stage := by
  intro bound lookup raw document stage
  have hlookup : lookup.Documented := by
    refine .map ?_ (fun _ _ _ _ he => by simp at he)
    intro v fields documents he hfields hget d hd
    cases he
    cases hfields
    cases hget
    rcases List.mem_pair.mp hd with rfl | rfl
    · exact .of_unnested (by simp) (by simp)
    · exact .of_unnested nofun nofun
  have hdocument : document.Documented := by
    refine .map (fun _ _ _ he => by simp at he) ?_
    intro v fields name documents he hfields hmem d hd
    cases he
    cases hfields
    rcases List.mem_pair.mp hmem with hmem | hmem
    · cases hmem
      rcases List.mem_pair.mp hd with rfl | rfl
      · exact hlookup
      · exact .of_unnested (by simp) (by simp)
    · cases hmem
  have hread : ofDocument document = .ok stage := rfl
  exact ⟨hdocument, hread, ofDocument_toDocument hdocument hread⟩

end Stage

end QueryPipeline
