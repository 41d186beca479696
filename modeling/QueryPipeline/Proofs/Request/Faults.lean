import Mathlib
import QueryPipeline.Proofs.Clause.Faults
import QueryPipeline.Proofs.Clause.FilterMerging
import QueryPipeline.Proofs.Request.CallOrder
import QueryPipeline.Proofs.Request.Language

namespace QueryPipeline

open Outcome

namespace Session

open Pipeline

def applyInTurn (s : Session) : List Clause → Except Fault Session
  | [] => .ok s
  | clause :: rest =>
    match s.apply clause with
    | (.ok _, next) => next.applyInTurn rest
    | (.error f, _) => .error f

/-- The clauses of a request, in the order in which it is commonly built. -/
def usualClauses : List Clause := [.filter, .sort, .limitFields, .paginate, .populate]

def request (source : SchemaSource) (settings : Settings) (queryString : String)
    (language : Value) : Except Fault CompiledPipeline := do
  let s ← (start source settings (.map (QueryString.parse queryString)) language).2
  let last ← s.applyInTurn usualClauses
  last.finish.1

theorem applyInTurn_eq (s : Session) (clauses : List Clause) :
    s.applyInTurn clauses =
      match (s.applyAll clauses).1.findSome? fun answer => fault? answer.2 with
      | some f => .error f
      | none => .ok (s.applyAll clauses).2 := by
  induction clauses generalizing s with
  | nil => rfl
  | cons clause rest ih =>
    rw [applyInTurn, applyAll_cons, List.findSome?_cons]
    obtain ⟨answer, next⟩ := s.apply clause
    cases answer with
    | ok answer => exact ih next
    | error f => rfl

section Clauses

variable {s : Session}

theorem fault?_sort (h : s.scope.settings.NamesFields) : fault? (s.outcome .sort) = none := by
  have hread : ∃ spec, Sort.read s.scope s.parameters = .ok spec := by
    unfold Sort.read
    dsimp only
    split
    · rcases h.sorted with hsorted | ⟨field, hsorted⟩
      · rw [hsorted]
        exact ⟨_, rfl⟩
      · rw [hsorted]
        exact ⟨_, rfl⟩
    · exact ⟨_, rfl⟩
  obtain ⟨spec, hread⟩ := hread
  rw [outcome, compile, hread]
  rfl

theorem fault?_limitFields (h : s.scope.settings.NamesFields) :
    fault? (s.outcome .limitFields) = none := by
  obtain ⟨names, hnames⟩ := h.hidden
  obtain ⟨enforced, he⟩ :=
    Projection.enforce_ok hnames (Projection.requested s.scope s.parameters)
  rw [outcome, compile]
  change fault? (Mismatch.lift (Projection.stages s.scope s.parameters)) = none
  rw [Projection.stages, he]
  rfl

theorem filterMap_matching?_usualClauses :
    (usualClauses.flatMap s.added).filterMap Stage.matching? =
      (s.added .filter).filterMap Stage.matching? := by
  have hnone (clause : Clause) (hsearch : clause.operation ≠ .search)
      (hfilter : clause.operation ≠ .filter) :
      (s.added clause).filterMap Stage.matching? = [] := by
    rw [List.filterMap_eq_nil_iff]
    intro stage hs
    exact matching?_eq_none stage fun ho => hfilter ((owner_of_mem_added hsearch hs).symm.trans ho)
  simp only [usualClauses, List.flatMap_cons, List.flatMap_nil, List.filterMap_append,
    List.filterMap_nil]
  rw [hnone .sort (by decide) (by decide),
    hnone .limitFields (by decide) (by decide),
    hnone .paginate (by decide) (by decide),
    hnone .populate (by decide) (by decide)]
  simp only [List.append_nil]

theorem fault?_reorder (stages : List Stage) :
    fault? (reorder stages) =
      fault? (Criteria.mergeAll (stages.filterMap Stage.matching?)) := by
  rw [reorder_eq, fault?_map]

theorem fault?_usualClauses (hsettings : s.scope.settings.NamesFields) (hstages : s.stages = [])
    (happlied : s.applied = []) (hcompiled : s.compiled = none) :
    fault? (s.applyInTurn usualClauses >>= fun last => last.finish.1) =
      (fault? (s.outcome .filter)).or ((fault? (s.outcome .populate)).or
        ((fault? (Criteria.mergeAll ((s.added .filter).filterMap Stage.matching?))).map
          Fault.mismatch)) := by
  have hfresh : ∀ clause ∈ usualClauses, clause.operation ∉ s.applied := by
    intro clause _ hm
    rw [happlied] at hm
    cases hm
  obtain ⟨hanswers, _, hopen, hall⟩ :=
    applyAll_of_open (s := s) (t := s) rfl rfl hcompiled (by decide) hfresh
  have hfault : (fun answer => fault? answer.2) ∘ s.answerOf = fun clause =>
      fault? (s.outcome clause) := by
    funext clause
    rw [Function.comp_apply, answerOf]
    cases s.outcome clause <;> rfl
  -- Sorting, choosing fields and paginating never fail, whatever was asked for.
  have hfirst : (s.applyAll usualClauses).1.findSome? (fun answer => fault? answer.2) =
      (fault? (s.outcome .filter)).or (fault? (s.outcome .populate)) := by
    have hpaginate : fault? (s.outcome .paginate) = none := rfl
    rw [hanswers, List.findSome?_map, hfault, usualClauses]
    simp only [List.findSome?_cons, List.findSome?_nil, fault?_sort hsettings,
      fault?_limitFields hsettings, hpaginate]
    cases fault? (s.outcome .filter) with
    | some f => rfl
    | none => cases fault? (s.outcome .populate) <;> rfl
  have hfinish : fault? (s.applyAll usualClauses).2.finish.1 =
      (fault? (Criteria.mergeAll ((s.added .filter).filterMap Stage.matching?))).map
        Fault.mismatch := by
    rw [finish_eq hopen, fault?_map, fault?_lift, fault?_reorder, hall, hstages, List.nil_append,
      filterMap_matching?_usualClauses]
  rw [applyInTurn_eq, hfirst, ← hfinish]
  cases fault? (s.outcome .filter) with
  | some f => rfl
  | none => cases fault? (s.outcome .populate) <;> rfl

/-- How a request can end in a fault of another kind: the first text that cannot be converted is
taken for a timestamp; else the first join that cannot be populated gives an object for the fields;
else the criteria of the filters do not merge, and one of them is on the field `$and`. -/
inductive Mishandled (s : Session) : Prop where
  | misread (first : FirstBad s.scope.Converts s.scope.Misreads s.parameters.operands)
  | misjoined (converted : ∀ o ∈ s.parameters.operands, s.scope.Converts o)
    (first : FirstBad s.scope.Populates s.scope.Misjoins s.parameters.joins)
  | unmerged (converted : ∀ o ∈ s.parameters.operands, s.scope.Converts o)
    (populated : ∀ e ∈ s.parameters.joins, s.scope.Populates e)
    (named : ∃ e ∈ s.parameters.filters, e.field = "$and")
    (failed : ∃ cause,
      Criteria.mergeAll ((s.added .filter).filterMap Stage.matching?) = .error cause) : Mishandled s

theorem usualClauses_foreign_iff (hschema : s.scope.schema.NamesModels)
    (hsettings : s.scope.settings.NamesFields) (hstages : s.stages = []) (happlied : s.applied = [])
    (hcompiled : s.compiled = none) (hreadable : s.parameters.Readable s.scope.schema) :
    (∃ f, fault? (s.applyInTurn usualClauses >>= fun last => last.finish.1) = some f ∧
      f.isForeign = true) ↔ s.Mishandled := by
  have hfilter : fault? (s.outcome .filter) =
      s.parameters.operands.findSome? fun o => fault? (s.scope.convert o) :=
    Scope.fault?_filterStages hreadable.filters
  have hpopulate : fault? (s.outcome .populate) =
      s.parameters.joins.findSome? fun e => fault? (s.scope.populate e) :=
    Scope.fault?_populateStages s.parameters
  have hconverted : fault? (s.outcome .filter) = none ↔
      ∀ o ∈ s.parameters.operands, s.scope.Converts o := by
    rw [hfilter, List.findSome?_eq_none_iff]
    simp only [Scope.converts_iff]
  have hpopulated : fault? (s.outcome .populate) = none ↔
      ∀ e ∈ s.parameters.joins, s.scope.Populates e := by
    rw [hpopulate, List.findSome?_eq_none_iff]
    exact forall₂_congr fun e he =>
      Scope.populates_iff hschema hsettings (hreadable.joins e he)
  have hmisread := findSome?_iff_firstBad s.parameters.operands
    (fun o _ => s.scope.converts_iff o) (fun o _ => s.scope.misreads_iff o)
  have hmisjoined := findSome?_iff_firstBad s.parameters.joins
    (fun e he => Scope.populates_iff hschema hsettings (hreadable.joins e he))
    (fun e he => Scope.misjoins_iff hschema hsettings (hreadable.joins e he))
  rw [fault?_usualClauses hsettings hstages happlied hcompiled, exists_or_iff, exists_or_iff,
    hconverted, hpopulated, hfilter, hmisread, hpopulate, hmisjoined]
  constructor
  · intro h
    rcases h with hfirst | ⟨hc, hfirst | ⟨hp, f, hf, hforeign⟩⟩
    · exact .misread hfirst
    · exact .misjoined hc hfirst
    · obtain ⟨stages, ho⟩ := fault?_eq_none_iff.mp (hconverted.mpr hc)
      have hadded : s.added .filter = stages := by
        rw [added, ho]
        rfl
      obtain ⟨cause, hcause, _⟩ := Option.map_eq_some_iff.mp hf
      refine .unmerged hc hp ?_ ⟨cause, fault?_eq_some_iff.mp hcause⟩
      -- Only a filter on `$and` itself brings a top-level `$and` into the criteria.
      by_contra hnone
      have hfield (e : Expression) (he : e ∈ s.parameters.filters) : e.field ≠ "$and" :=
        fun hfield => hnone ⟨e, he, hfield⟩
      have hmergeable {criteria : Dict} (hc : .matching criteria ∈ stages) :
          Criteria.Mergeable criteria :=
        Scope.mergeable_of_mem_filterStages (fun e he => (hreadable.filters e he).comparable) hfield
          ho hc
      obtain ⟨criteria, hm⟩ := mergeAll_total fun _ => hmergeable
      rw [hadded, hm] at hcause
      cases hcause
  · intro h
    cases h with
    | misread hfirst => exact .inl hfirst
    | misjoined hc hfirst => exact .inr ⟨hc, .inl hfirst⟩
    | unmerged hc hp named failed =>
      obtain ⟨cause, failed⟩ := failed
      refine .inr ⟨hc, .inr ⟨hp, .mismatch cause, ?_, rfl⟩⟩
      rw [failed]
      rfl

end Clauses

theorem askedLanguage_ok {schema : Schema} (settings : Settings) {language : Value}
    {q : QueryObject} (hlanguage : language = .null ∨ ∃ name, language = .text name)
    (hq : q.Readable schema) :
    ∃ asked, Mismatch.lift (askedLanguage settings language q) = .ok asked := by
  have haccepted {v : Value} (hv : v.Spoken) :
      ∃ asked, Mismatch.lift (settings.accepted? v) = .ok asked := by
    obtain ⟨asked, hasked⟩ := Settings.accepted?_ok (s := settings) hv
    exact ⟨asked, lift_eq_ok_iff.mpr hasked⟩
  have hcontrol : q.controlValue "lang" = .null ∨ ∃ name, q.controlValue "lang" = .text name := by
    rw [QueryObject.controlValue]
    cases hg : Entries.get? q.control "lang" with
    | none => exact .inl rfl
    | some v =>
      obtain ⟨e, he, _, rfl⟩ := Entries.mem_of_get?_eq_some hg
      exact .inr (hq.controls e he)
  rw [askedLanguage]
  split
  · exact haccepted hlanguage
  · exact haccepted hcontrol

theorem start_not_foreign {source : SchemaSource} {schema : Schema} {settings : Settings}
    {entries : Entries Value} {language : Value} {f : Fault}
    (hresolve : source.resolve = .ok schema)
    (hlanguage : language = .null ∨ ∃ name, language = .text name)
    (hwritten : (Value.map entries).Written)
    (hf : (start source settings (.map entries) language).2 = .error f) : f.isForeign = false := by
  have hfault := fault?_eq_some_iff.mpr hf
  rw [fault?_start hresolve] at hfault
  cases hp : QueryObject.parse schema (.ofEntries entries) with
  | error g =>
    rw [hp] at hfault
    cases hfault
    obtain ⟨cause, rfl⟩ := QueryObject.parse_refused hwritten.entries hp
    rfl
  | ok q =>
    have hq := QueryObject.parse_readable hwritten.entries hp
    obtain ⟨asked, ha⟩ := askedLanguage_ok settings hlanguage hq
    rw [hp, fault?_bind_ok, ha] at hfault
    cases hfault

/-- A query string causes a fault of another kind just when the request is mishandled. -/
theorem request_foreign_iff {source : SchemaSource} {schema : Schema} {settings : Settings}
    {language : Value} (queryString : String) (hresolve : source.resolve = .ok schema)
    (hschema : schema.NamesModels) (hsettings : settings.NamesFields)
    (hlanguage : language = .null ∨ ∃ name, language = .text name) :
    (∃ f, request source settings queryString language = .error f ∧ f.isForeign = true) ↔
      ∃ lines s,
        start source settings (.map (QueryString.parse queryString)) language = (lines, .ok s) ∧
          s.Mishandled := by
  have hwritten := QueryString.parse_written queryString
  rw [request]
  cases hstart : start source settings (.map (QueryString.parse queryString)) language with
  | mk lines result =>
    cases result with
    | error f =>
      have hf := start_not_foreign hresolve hlanguage hwritten (congrArg Prod.snd hstart)
      constructor
      · intro h
        obtain ⟨g, hg, hforeign⟩ := h
        cases hg
        rw [hf] at hforeign
        cases hforeign
      · intro h
        obtain ⟨_, _, hs, _⟩ := h
        cases hs
    | ok s =>
      obtain ⟨hstages, happlied, hcompiled⟩ := start_open hstart
      obtain ⟨hr, hparse, _, hset⟩ := start_ok hstart
      have hscope : schema = s.scope.schema := Except.ok.inj (hresolve.symm.trans hr)
      subst hscope
      rw [← hset] at hsettings
      have hreadable := QueryObject.parse_readable hwritten.entries hparse
      have hiff := usualClauses_foreign_iff hschema hsettings hstages happlied hcompiled hreadable
      simp only [fault?_eq_some_iff] at hiff
      constructor
      · intro h
        exact ⟨lines, s, rfl, hiff.mp h⟩
      · intro h
        obtain ⟨lines', s', hs, hm⟩ := h
        cases hs
        exact hiff.mpr hm

theorem namesFields_default : ({} : Settings).NamesFields :=
  ⟨⟨[], rfl⟩, .inr ⟨"createdAt", rfl⟩⟩

theorem request_foreign_iff_joined_object :
    let schema : Schema :=
      { origin := .mapping, modelName := none,
        fields := [("users", { type := .array, target := .text "User" })],
        translatable := [], collection := none }
    let s : Session :=
      { scope := { schema, settings := {}, asked := none }
        parameters :=
          { control := [], filters := []
            joins := [.join "users" (.map [("x", .text "1")])] } }
    schema.NamesModels ∧ ({} : Settings).NamesFields ∧ s.Mishandled ∧
      start (.schema schema) {} (.map (QueryString.parse "users[p][x]=1")) .null = ([], .ok s) ∧
      ∃ f, request (.schema schema) {} "users[p][x]=1" .null = .error f ∧ f.isForeign = true := by
  intro schema s
  have hschema : schema.NamesModels := by
    intro e he
    rw [List.mem_singleton.mp he]
    exact .inr ⟨"User", rfl⟩
  have hmis : s.scope.Misjoins (.join "users" (.map [("x", .text "1")])) :=
    ⟨"users", [("x", .text "1")], rfl, rfl⟩
  have hmishandled : s.Mishandled := .misjoined nofun ⟨[], _, [], rfl, nofun, hmis⟩
  have hparse : QueryString.parse "users[p][x]=1" =
      [("users", .map [("p", .map [("x", .text "1")])])] := by cbv
  have hstart : start (.schema schema) {} (.map (QueryString.parse "users[p][x]=1")) .null =
      ([], .ok s) := by
    rw [hparse]
    rfl
  have hforeign : ∃ f, request (.schema schema) {} "users[p][x]=1" .null = .error f ∧
      f.isForeign = true :=
    (request_foreign_iff "users[p][x]=1" rfl hschema namesFields_default (.inl rfl)).mpr
      ⟨[], s, hstart, hmishandled⟩
  exact ⟨hschema, namesFields_default, hmishandled, hstart, hforeign⟩

theorem request_misread_timestamp :
    let schema : Schema :=
      { origin := .mapping, modelName := none, fields := [("createdAt", { type := .date })],
        translatable := [], collection := none }
    schema.NamesModels ∧ ({} : Settings).NamesFields ∧
      ∃ f, request (.schema schema) {} "createdAt=%1C5" .null = .error f ∧ f.isForeign = true := by
  intro schema
  have hschema : schema.NamesModels := by
    intro e he
    rw [List.mem_singleton.mp he]
    exact .inl rfl
  exact ⟨hschema, namesFields_default, .mismatch .notInteger, by cbv, rfl⟩

end Session

end QueryPipeline
