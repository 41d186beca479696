import QueryPipeline.Proofs.Request.Safety
import QueryPipeline.Proofs.Stage.Document

namespace QueryPipeline

theorem Value.unwritable?_list_eq_none_iff {items : List Value} :
    (Value.list items).unwritable? = none ↔ ∀ v ∈ items, v.unwritable? = none := by
  rw [unwritable?]
  induction items with
  | nil => simp [unwritableItem?]
  | cons v rest ih => rw [unwritableItem?, Option.or_eq_none_iff, ih, List.forall_mem_cons]

namespace CompiledPipeline

def counting (p : CompiledPipeline) : Value :=
  .list (Stage.toDocuments (countingStages p.stages))

theorem facet_eq (p : CompiledPipeline) :
    p.facet = .list [.map [("$facet", .map (("documents", p.documents) ::
      if p.counted then [("totalCount", p.counting)] else []))]] := by
  rw [facet, facetStage, countStages?, Stage.toDocument]
  cases p.counted <;> rfl

theorem unwritable?_counting {p : CompiledPipeline} (h : p.documents.unwritable? = none) :
    p.counting.unwritable? = none := by
  rw [documents, Stage.toDocuments_eq, Value.unwritable?_list_eq_none_iff] at h
  rw [counting, Stage.toDocuments_eq, Value.unwritable?_list_eq_none_iff]
  intro v hv
  obtain ⟨stage, hstage, rfl⟩ := List.mem_map.mp hv
  rw [countingStages, List.mem_append, List.mem_singleton] at hstage
  rcases hstage with hstage | rfl
  · exact h _ (List.mem_map_of_mem (List.mem_of_mem_filter hstage))
  · rfl

theorem unwritable?_facet (p : CompiledPipeline) :
    p.facet.unwritable? = p.documents.unwritable? := by
  have hfacet : p.facet.unwritable? = p.documents.unwritable?.or (Value.unwritableField?
      (if p.counted then [("totalCount", p.counting)] else [])) := by
    rw [facet_eq]
    simp [Value.unwritable?, Value.unwritableItem?, Value.unwritableField?]
  rw [hfacet]
  cases h : p.documents.unwritable? with
  | some m => rfl
  | none => cases p.counted <;> simp [Value.unwritableField?, unwritable?_counting h]

end CompiledPipeline

theorem branchItems_of_list {row : Value} {name : String} {items : List Value}
    (h : rowField? row name = .ok (some (.list items))) : branchItems row name = .ok items := by
  rw [branchItems, h]
  cases items <;> rfl

theorem totalOf_maps {rows : List Value} (h : ∀ row ∈ rows, row.IsMap) :
    ∃ total, totalOf rows = .ok total := by
  cases rows with
  | nil => exact ⟨_, rfl⟩
  | cons row rest =>
    have hrow := h row List.mem_cons_self
    cases row with
    | map entries => exact ⟨_, rfl⟩
    | keyed entries => exact ⟨_, rfl⟩
    | _ => cases hrow

namespace CountingRun

theorem collection_load (run : CountingRun) (rows : List Value) :
    (run.load rows).2.collection = run.collection := by
  unfold load
  split
  · rfl
  · dsimp only
    split
    · split <;> rfl
    · rfl

theorem collection_execute (run : CountingRun) (awaits : Bool) :
    (run.execute awaits).2.collection = (run.collection.aggregate awaits run.pipeline.facet).2 := by
  unfold execute
  dsimp only
  split
  · rfl
  · exact collection_load _ _

theorem load_branches (run : CountingRun) (documents : List Value) {rows : List Value}
    {total : Value} (htotal : totalOf rows = .ok total) :
    run.load [.map [("documents", .list documents), ("totalCount", .list rows)]] =
      (.ok (), { run with
        documents := .list documents
        total := if run.pipeline.counted then total else .null
        loaded := true }) := by
  have hdocuments : branchItems (.map [("documents", .list documents), ("totalCount", .list rows)])
      "documents" = .ok documents := branchItems_of_list rfl
  have hrows : branchItems (.map [("documents", .list documents), ("totalCount", .list rows)])
      "totalCount" = .ok rows := branchItems_of_list rfl
  rw [load, facetRow, List.headD_cons, hdocuments, hrows]
  dsimp only
  rw [show (.ok rows >>= totalOf : Except Mismatch Value) = totalOf rows from rfl, htotal]
  split <;> rfl

theorem execute_branches (run : CountingRun) {awaits : Bool} {documents rows : List Value}
    {total : Value} (htotal : totalOf rows = .ok total)
    (hanswer : run.collection.rowsFor awaits =
      .ok [.map [("documents", .list documents), ("totalCount", .list rows)]]) :
    (run.execute awaits).1 = .ok () ∧ (run.execute awaits).2.result =
      .map [("documents", .list documents),
        ("totalCount", if run.pipeline.counted then total else .null)] := by
  simp only [execute, Collection.aggregate, hanswer, load_branches _ documents htotal]
  exact ⟨rfl, rfl⟩

end CountingRun

namespace Session

/-- A pipeline can be written into the log, if it has to be. -/
def Loggable (settings : Settings) (pipeline : Value) : Prop :=
  settings.logs.truthy = true → pipeline.unwritable? = none

section Step

variable {s t : Session} {p : CompiledPipeline} {c : Collection}

theorem send_of_loggable {pipeline : Value} (hc : s.collection = some c)
    (h : Loggable s.scope.settings pipeline) :
    ∃ log, s.send pipeline = (.ok c, { s with log }) := by
  have hlogged : ∃ log, s.logPipeline pipeline = .ok { s with log } := by
    rw [logPipeline]
    split
    · rename_i hlogs
      rw [h hlogs]
      exact ⟨_, rfl⟩
    · exact ⟨s.log, rfl⟩
  obtain ⟨log, hlogged⟩ := hlogged
  refine ⟨log, ?_⟩
  rw [send, hlogged]
  dsimp only
  rw [hc]

theorem send_of_unwritable {pipeline : Value} {m : Mismatch}
    (hlogs : s.scope.settings.logs.truthy = true) (h : pipeline.unwritable? = some m) :
    s.send pipeline = (.error (.mismatch m), s) := by
  rw [send, logPipeline, if_pos hlogs, h]

theorem finish_eq_of_ok (h : s.finish.1 = .ok p) :
    s.finish = (.ok p, { s with compiled := some p }) :=
  Prod.ext h (finish_of_ok h)

theorem execute_of_loggable (h : s.finish.1 = .ok p) (hc : s.collection = some c)
    (hlog : Loggable s.scope.settings p.documents) (awaits : Bool) :
    let done := CountingRun.execute { pipeline := p, collection := c } awaits
    (s.execute awaits).1 = (done.1.map fun _ => .result done.2.result) ∧
      (s.execute awaits).2.collection = some (c.aggregate awaits p.facet).2 := by
  intro done
  have hfacet : Loggable s.scope.settings p.facet := by
    intro hlogs
    rw [p.unwritable?_facet, hlog hlogs]
  obtain ⟨log, hsend⟩ := send_of_loggable (s := { s with compiled := some p }) hc hfacet
  rw [execute, finish_eq_of_ok h]
  dsimp only
  rw [hsend]
  exact ⟨rfl, congrArg some (CountingRun.collection_execute _ _)⟩

theorem count_of_loggable (h : s.finish.1 = .ok p) (hc : s.collection = some c)
    (hlog : Loggable s.scope.settings p.documents) (awaits : Bool) :
    (s.count awaits).1 = (do
      let rows ← c.rowsFor awaits
      return .result (← Mismatch.lift (totalOf rows))) ∧
      (s.count awaits).2.collection = some (c.aggregate awaits p.counting).2 := by
  have hcounting : Loggable s.scope.settings p.counting := fun hlogs =>
    CompiledPipeline.unwritable?_counting (hlog hlogs)
  obtain ⟨log, hsend⟩ := send_of_loggable (s := { s with compiled := some p }) hc hcounting
  rw [count, finish_eq_of_ok h]
  dsimp only
  rw [← CompiledPipeline.counting, hsend]
  exact ⟨rfl, rfl⟩

theorem execute_of_unwritable (h : s.finish.1 = .ok p) {m : Mismatch}
    (hlogs : s.scope.settings.logs.truthy = true) (hm : p.documents.unwritable? = some m)
    (awaits : Bool) :
    s.execute awaits = (.error (.mismatch m), { s with compiled := some p }) := by
  have hsend : send { s with compiled := some p } p.facet =
      (.error (.mismatch m), { s with compiled := some p }) :=
    send_of_unwritable hlogs (p.unwritable?_facet.trans hm)
  rw [execute, finish_eq_of_ok h]
  dsimp only
  rw [hsend]

def CountsAsSet (s : Session) : Prop :=
  ∀ p, s.compiled = some p → p.counted = s.scope.settings.countsTotal.truthy

theorem counted_of_finish (hs : s.CountsAsSet) (h : s.finish.1 = .ok p) :
    p.counted = s.scope.settings.countsTotal.truthy := by
  cases hcompiled : s.compiled with
  | some q =>
    rw [finish_of_compiled hcompiled] at h
    cases h
    exact hs _ hcompiled
  | none =>
    rw [finish_eq hcompiled] at h
    obtain ⟨stages, _, rfl⟩ := Outcome.map_eq_ok_iff.mp h
    rfl

theorem Moves.countsAsSet {step : Step} {answer : Except Fault Answer} (h : s.Moves step answer t)
    (hs : s.CountsAsSet) : t.CountsAsSet := by
  cases h with
  | @finished _ _ pipeline log collection finishes h =>
    have hcounted : pipeline.counted = s.scope.settings.countsTotal.truthy := counted_of_finish hs h
    intro p hp
    cases hp
    exact hcounted
  | _ => exact hs

theorem run_countsAsSet (hs : s.CountsAsSet) (steps : List Step) : (s.run steps).CountsAsSet := by
  induction steps generalizing s with
  | nil => exact hs
  | cons step rest ih => exact ih ((step_moves s step).countsAsSet hs)

end Step

/-- How documents are counted in all runs of a session with the given settings. -/
structure CountsAlike (settings : Settings) (s : Session) : Prop where
  /-- One pipeline loads the documents by the compiled stages, and counts them if this is set, by
  the stages that also count them on their own. -/
  branches (before : List Step) (p : CompiledPipeline) (h : (s.run before).finish.1 = .ok p) :
    p.facet = .list [.map [("$facet", .map (("documents", p.documents) ::
      if settings.countsTotal.truthy then [("totalCount", p.counting)] else []))]]
  sends (before : List Step) (p : CompiledPipeline) (h : (s.run before).finish.1 = .ok p)
    (c : Collection) (hc : (s.run before).collection = some c)
    (hlog : Loggable settings p.documents) (awaits : Bool) :
    (s.run (before ++ [.execute awaits])).collection =
        some { c with answers := c.answers.tail, received := c.received ++ [p.facet] } ∧
      (s.run (before ++ [.count awaits])).collection =
        some { c with answers := c.answers.tail, received := c.received ++ [p.counting] }
  /-- Answered alike, at one point of a run or at two, both give the same total. -/
  agrees (before before' : List Step) (p : CompiledPipeline)
    (h : (s.run before).finish.1 = .ok p) (h' : (s.run before').finish.1 = .ok p)
    (c c' : Collection) (hc : (s.run before).collection = some c)
    (hc' : (s.run before').collection = some c') (hlog : Loggable settings p.documents)
    (documents rows : List Value) (maps : ∀ row ∈ rows, row.IsMap) (awaits awaits' : Bool)
    (hanswer : c.rowsFor awaits =
      .ok [.map [("documents", .list documents), ("totalCount", .list rows)]])
    (hanswer' : c'.rowsFor awaits' = .ok rows) :
    ∃ total, s.answer before (.execute awaits) = .ok (.result (.map
        [("documents", .list documents),
          ("totalCount", if settings.countsTotal.truthy then total else .null)])) ∧
      s.answer before' (.count awaits') = .ok (.result total)
  /-- Stages that cannot be written into the log are not sent. -/
  withholds (before : List Step) (p : CompiledPipeline) (h : (s.run before).finish.1 = .ok p)
    (m : Mismatch) (logs : settings.logs.truthy = true) (hm : p.documents.unwritable? = some m)
    (awaits : Bool) :
    s.answer before (.execute awaits) = .error (.mismatch m) ∧
      (s.run (before ++ [.execute awaits])).collection = (s.run before).collection

/-- In every run of a started session the two ways to count agree. -/
theorem start_countsAlike {source : SchemaSource} {settings : Settings} {query language : Value}
    {lines : List LogLine} {s : Session}
    (hstart : start source settings query language = (lines, .ok s)) :
    s.CountsAlike settings := by
  obtain ⟨_, _, _, hset⟩ := start_read hstart
  have hsettings (before : List Step) : (s.run before).scope.settings = settings := by
    rw [(run_frame before).1, hset]
  have hopen : s.CountsAsSet := by
    intro p hp
    rw [(start_open hstart).2.2] at hp
    cases hp
  have hcounted {before : List Step} {p : CompiledPipeline}
      (h : (s.run before).finish.1 = .ok p) : p.counted = settings.countsTotal.truthy := by
    rw [counted_of_finish (run_countsAsSet hopen before) h, hsettings]
  refine { branches := ?branches, sends := ?sends, agrees := ?agrees, withholds := ?withholds }
  case branches =>
    intro before p h
    rw [p.facet_eq, hcounted h]
  case sends =>
    intro before p h c hc hlog awaits
    rw [← hsettings before] at hlog
    rw [run_concat, run_concat]
    exact ⟨(execute_of_loggable h hc hlog awaits).2, (count_of_loggable h hc hlog awaits).2⟩
  case agrees =>
    intro before before' p h h' c c' hc hc' hlog documents rows maps awaits awaits' hanswer hanswer'
    obtain ⟨total, htotal⟩ := totalOf_maps maps
    obtain ⟨hdone, hresult⟩ :=
      CountingRun.execute_branches { pipeline := p, collection := c } htotal hanswer
    refine ⟨total, ?_, ?_⟩
    · rw [answer, step, (execute_of_loggable h hc (hsettings before ▸ hlog) awaits).1, hdone,
        hresult, hcounted h]
      rfl
    · rw [answer, step, (count_of_loggable h' hc' (hsettings before' ▸ hlog) awaits').1, hanswer']
      dsimp only [bind, Except.bind]
      rw [htotal]
      rfl
  case withholds =>
    intro before p h m logs hm awaits
    rw [← hsettings before] at logs
    rw [run_concat, answer, step, execute_of_unwritable h logs hm]
    exact ⟨rfl, rfl⟩

theorem start_countsAlike_filtered_page :
    let schema : Schema :=
      { origin := .mapping, modelName := none, fields := [("name", { type := .string })],
        translatable := [], collection := none }
    let query : Entries Value := [("name", .text "x")]
    let s : Session :=
      { scope := { schema, settings := {}, asked := none }
        parameters := { control := [], filters := [.equals "name" (.text "x")], joins := [] } }
    let rows : List Value := [.map [("total", .int 127)]]
    let c : Collection :=
      { mode := .awaited
        answers := [[.map [("documents", .list [.map query]), ("totalCount", .list rows)]], rows] }
    let before : List Step := [.apply .filter, .apply .paginate, .useCollection c]
    let p : CompiledPipeline :=
      { stages := [.matching [("name", .text "x")], .skip (.int 0), .limit (.int 25)]
        counted := true }
    start (.schema schema) {} (.map query) .null = ([], .ok s) ∧ s.CountsAlike {} ∧
      (s.run before).finish.1 = .ok p ∧ ∃ total,
        s.answer before (.execute true) = .ok (.result (.map
          [("documents", .list [.map query]), ("totalCount", total)])) ∧
        s.answer (before ++ [.execute true]) (.count true) = .ok (.result total) := by
  intro schema query s rows c before p
  have hstart : start (.schema schema) {} (.map query) .null = ([], .ok s) := rfl
  have halike := start_countsAlike hstart
  have hfinish : (s.run before).finish.1 = .ok p := by
    subst p before c s schema
    rfl
  have hcollection : (s.run before).collection = some c := by
    subst before s schema
    rfl
  have hlog : Loggable {} p.documents := fun _ => rfl
  have hagain : (s.run (before ++ [.execute true])).finish.1 = .ok p := by
    refine finish_of_compiled (run_compiles ?_ hfinish).1
    rfl
  have hsent := (halike.sends before p hfinish c hcollection hlog true).1
  exact ⟨hstart, halike, hfinish, halike.agrees _ _ p hfinish hagain c _ hcollection hsent hlog
    [.map query] rows (by simp [rows, Value.IsMap]) true true rfl rfl⟩

/-- A day can stand as a key in a stage, and the log has no form for it. -/
theorem execute_unlogged_day :
    let schema : Schema :=
      { origin := .mapping, modelName := none, fields := [("name", { type := .string })],
        translatable := [], collection := none }
    let c : Collection := { mode := .atOnce, answers := [] }
    let day : Value := .day ⟨2024, 1, 1, by decide⟩
    let before : List Step :=
      [.addStage (.map [("$match", .list [.list [day, .int 1]])]), .useCollection c]
    ∃ lines s p, start (.schema schema) { logs := .bool true } (.map []) .null = (lines, .ok s) ∧
      (s.run before).finish.1 = .ok p ∧ (s.run before).collection = some c ∧
      s.answer before (.execute false) = .error (.mismatch .notDocumentKey) ∧
      (s.run (before ++ [.execute false])).collection = some c :=
  ⟨_, _, _, rfl, rfl, rfl, rfl, rfl⟩

end Session

end QueryPipeline
