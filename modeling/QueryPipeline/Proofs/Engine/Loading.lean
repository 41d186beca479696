import QueryPipeline.Proofs.Outcome
import QueryPipeline.Proofs.Request.Counting

namespace QueryPipeline

namespace CountingStep

def executes : CountingStep → Bool
  | .execute _ => true
  | _ => false

def awaits : CountingStep → Bool
  | .execute awaits => awaits
  | _ => false

def view (documents total : Value) : CountingStep → Option Value
  | .execute _ => none
  | .count => some total
  | .documents => some documents
  | .iterate => some documents
  | .result => some (.map [("documents", documents), ("totalCount", total)])

end CountingStep

structure Batch where
  documents : List Value
  total : Value

namespace Batch

def ofRows (counted : Bool) (rows : List Value) : Except Mismatch Batch := do
  let documents ← branchItems (facetRow rows) "documents"
  let total ← if counted then branchItems (facetRow rows) "totalCount" >>= totalOf else .ok .null
  return { documents, total }

def view (b : Batch) (step : CountingStep) : Option Value :=
  step.view (.list b.documents) b.total

end Batch

/-- A step, and the collection that it finds: one that answers anything, or is down. -/
structure CountingCall where
  step : CountingStep
  collection : Collection

namespace CountingCall

def asks (c : CountingCall) (loaded : Bool) : Bool :=
  c.step.executes || !loaded

def answered (c : CountingCall) (counted : Bool) : Except Fault Batch := do
  let rows ← c.collection.rowsFor c.step.awaits
  Mismatch.lift (Batch.ofRows counted rows)

def asked (c : CountingCall) (p : CompiledPipeline) : Collection :=
  (c.collection.aggregate c.step.awaits p.facet).2

/-- The documents in an answer that cannot be taken over as a whole, when they can be read. -/
def spilled? (c : CountingCall) (counted : Bool) : Option (List Value) :=
  match c.answered counted with
  | .ok _ => none
  | .error _ => (do
      let rows ← c.collection.rowsFor c.step.awaits
      Mismatch.lift (branchItems (facetRow rows) "documents")).toOption

theorem answered_of_spilled {c : CountingCall} {counted : Bool} {documents : List Value}
    (h : c.spilled? counted = some documents) : ∃ f, c.answered counted = .error f := by
  rw [spilled?] at h
  cases hanswered : c.answered counted with
  | error f => exact ⟨f, rfl⟩
  | ok b =>
    rw [hanswered] at h
    cases h

/-- What is loaded after the call: the answer, if it is asked for and can be taken over as a whole,
or else what was loaded before. -/
def loads (c : CountingCall) (counted : Bool) (held : Option Batch) : Option Batch :=
  if c.asks held.isSome then (c.answered counted).toOption.or held else held

end CountingCall

def lastLoaded (counted : Bool) (held : Option Batch) (calls : List CountingCall) : Option Batch :=
  calls.foldl (fun held c => c.loads counted held) held

namespace CountingRun

def call (run : CountingRun) (c : CountingCall) : Except Fault (Option Value) × CountingRun :=
  { run with collection := c.collection }.step c.step

/-- The run after a series of calls; a call that fails does not end it. -/
def after (run : CountingRun) (calls : List CountingCall) : CountingRun :=
  calls.foldl (fun reached c => (reached.call c).2) run

def stored (run : CountingRun) : Value × Value × Bool :=
  (run.documents, run.total, run.loaded)

section Call

theorem load_eq (run : CountingRun) (rows : List Value) :
    run.load rows =
      match Batch.ofRows run.pipeline.counted rows with
      | .error m => (.error m, { run with
          documents := ((branchItems (facetRow rows) "documents").toOption.map .list).getD
            run.documents })
      | .ok b => (.ok (), { run with
          documents := .list b.documents
          total := b.total
          loaded := true }) := by
  rw [load, Batch.ofRows]
  cases branchItems (facetRow rows) "documents" with
  | error m => rfl
  | ok documents =>
    dsimp only [bind, Except.bind]
    cases run.pipeline.counted with
    | false => rfl
    | true =>
      rw [if_pos rfl, if_pos rfl]
      cases branchItems (facetRow rows) "totalCount" with
      | error m => rfl
      | ok rows =>
        dsimp only
        cases totalOf rows <;> rfl

theorem execute_eq (run : CountingRun) (awaits : Bool) :
    run.execute awaits =
      let run' := { run with collection := (run.collection.aggregate awaits run.pipeline.facet).2 }
      match run.collection.rowsFor awaits with
      | .error f => (.error f, run')
      | .ok rows => (Mismatch.lift (run'.load rows).1, (run'.load rows).2) := by
  cases h : run.collection.rowsFor awaits <;> simp only [execute, Collection.aggregate, h]

theorem step_eq (run : CountingRun) (s : CountingStep) :
    run.step s =
      let done := if s.executes || !run.loaded then run.execute s.awaits else (.ok (), run)
      (done.1.map fun _ => s.view done.2.documents done.2.total, done.2) := by
  -- all readings load alike, and differ in what they show
  have hanswer (read : CountingRun → Value) : step.answer run read =
      let done := if !run.loaded then run.execute false else (.ok (), run)
      (done.1.map fun _ => some (read done.2), done.2) := by
    rw [step.answer, reading, ensureLoaded]
    cases run.loaded with
    | true => rfl
    | false =>
      cases h : (run.execute false).1 with
      | error f => simp [h, Except.map]
      | ok done => simp [h, Except.map]
  cases s with
  | execute awaits => rfl
  | count => exact hanswer _
  | documents => exact hanswer _
  | iterate => exact hanswer _
  | result => exact hanswer _

/-- A call that asks the collection takes its answer over, or fails and keeps no more of it than the
documents; any other shows what is stored. -/
theorem call_eq (run : CountingRun) (c : CountingCall) :
    run.call c =
      if c.asks run.loaded then
        match c.answered run.pipeline.counted with
        | .error f => (.error f, { run with
            collection := c.asked run.pipeline
            documents := ((c.spilled? run.pipeline.counted).map .list).getD run.documents })
        | .ok b => (.ok (b.view c.step), { run with
            collection := c.asked run.pipeline
            documents := .list b.documents
            total := b.total
            loaded := true })
      else
        (.ok (c.step.view run.documents run.total), { run with collection := c.collection }) := by
  rw [call, step_eq, CountingCall.asks]
  dsimp only
  cases c.step.executes || !run.loaded with
  | false => rfl
  | true =>
    rw [if_pos rfl, if_pos rfl, execute_eq, CountingCall.spilled?, CountingCall.answered]
    dsimp only
    cases c.collection.rowsFor c.step.awaits with
    | error f => rfl
    | ok rows =>
      dsimp only [bind, Except.bind]
      rw [load_eq]
      dsimp only
      cases Batch.ofRows run.pipeline.counted rows with
      | ok b => rfl
      | error m => cases branchItems (facetRow rows) "documents" <;> rfl

variable {run : CountingRun} {c : CountingCall}

theorem call_of_unasked (h : c.asks run.loaded = false) :
    run.call c =
      (.ok (c.step.view run.documents run.total), { run with collection := c.collection }) := by
  rw [call_eq, h, if_neg Bool.false_ne_true]

theorem answer_of_asked (h : c.asks run.loaded = true) :
    (run.call c).1 = (c.answered run.pipeline.counted).map fun b => b.view c.step := by
  rw [call_eq, h, if_pos rfl]
  cases c.answered run.pipeline.counted <;> rfl

theorem call_ok {answer : Option Value} (h : (run.call c).1 = .ok answer) :
    (run.call c).2.loaded = true ∧
      c.step.view (run.call c).2.documents (run.call c).2.total = answer := by
  rw [call_eq] at h ⊢
  cases hasks : c.asks run.loaded with
  | false =>
    rw [hasks] at h
    cases h
    rw [CountingCall.asks, Bool.or_eq_false_iff, Bool.not_eq_false'] at hasks
    exact ⟨hasks.2, rfl⟩
  | true =>
    rw [hasks, if_pos rfl] at h
    cases hanswered : c.answered run.pipeline.counted with
    | error f =>
      rw [hanswered] at h
      cases h
    | ok b =>
      rw [hanswered] at h
      cases h
      exact ⟨rfl, rfl⟩

theorem call_error {f : Fault} (h : (run.call c).1 = .error f) :
    c.asks run.loaded = true ∧ (run.call c).2.stored =
      (((c.spilled? run.pipeline.counted).map .list).getD run.documents, run.total,
        run.loaded) := by
  cases hasks : c.asks run.loaded with
  | false =>
    rw [call_of_unasked hasks] at h
    cases h
  | true =>
    refine ⟨rfl, ?_⟩
    rw [call_eq, hasks, if_pos rfl] at h ⊢
    cases hanswered : c.answered run.pipeline.counted with
    | error f => rfl
    | ok b =>
      rw [hanswered] at h
      cases h

end Call

structure Counts (p : CompiledPipeline) (held : Option Batch) (run : CountingRun) : Prop where
  pipeline : run.pipeline = p
  loaded : run.loaded = held.isSome
  total : run.total = (held.map Batch.total).getD .null

structure Holds (p : CompiledPipeline) (held : Option Batch) (run : CountingRun) : Prop
    extends Counts p held run where
  documents : run.documents = (held.map fun b => .list b.documents).getD .null

/-- A call is answered with documents that are not those which are loaded, and cannot be taken over
as a whole. -/
def Tears (p : CompiledPipeline) (held : Option Batch) (c : CountingCall) : Prop :=
  c.asks held.isSome = true ∧
    ∃ documents ∈ c.spilled? p.counted, ∀ b ∈ held, documents ≠ b.documents

/-- A call leaves and shows only what belongs to one answer. -/
structure Whole (p : CompiledPipeline) (held : Option Batch) (run : CountingRun)
    (c : CountingCall) : Prop where
  keeps (f : Fault) (h : (run.call c).1 = .error f) : (run.call c).2.stored = run.stored
  shows (v : Value) (h : (run.call c).1 = .ok (some v)) :
    ∃ b, c.loads p.counted held = some b ∧ b.view c.step = some v
  silent (loaded : held.isSome = true) (reads : c.step.executes = false) :
    (run.call c).2.collection = c.collection

section Step

variable {p : CompiledPipeline} {held : Option Batch} {run : CountingRun} {c : CountingCall}

theorem Counts.call (h : Counts p held run) (c : CountingCall) :
    Counts p (c.loads p.counted held) (run.call c).2 := by
  obtain ⟨rfl, hloaded, htotal⟩ := h
  rw [call_eq, CountingCall.loads, ← hloaded]
  cases c.asks run.loaded with
  | false => exact ⟨rfl, hloaded, htotal⟩
  | true =>
    rw [if_pos rfl, if_pos rfl]
    cases c.answered run.pipeline.counted with
    | error f => exact ⟨rfl, hloaded, htotal⟩
    | ok b => exact ⟨rfl, rfl, rfl⟩

theorem Counts.call_of_reading (h : Counts p held run) (loaded : held.isSome = true)
    (reads : c.step.executes = false) :
    run.call c =
      (.ok (c.step.view run.documents run.total), { run with collection := c.collection }) := by
  refine call_of_unasked ?_
  rw [CountingCall.asks, reads, h.loaded, loaded]
  rfl

theorem Holds.tears_iff (h : Holds p held run) :
    Tears p held c ↔ c.asks run.loaded = true ∧
      ((c.spilled? p.counted).map .list).getD run.documents ≠ run.documents := by
  rw [Tears, h.loaded, h.documents]
  cases c.spilled? p.counted with
  | none => simp
  | some documents => cases held <;> simp

theorem Holds.call (h : Holds p held run) (whole : ¬ Tears p held c) :
    Holds p (c.loads p.counted held) (run.call c).2 := by
  refine { h.toCounts.call c with documents := ?_ }
  rw [h.tears_iff] at whole
  obtain ⟨⟨rfl, hloaded, _⟩, hdocuments⟩ := h
  rw [call_eq, CountingCall.loads, ← hloaded]
  cases hasks : c.asks run.loaded with
  | false => exact hdocuments
  | true =>
    rw [if_pos rfl, if_pos rfl]
    cases c.answered run.pipeline.counted with
    | error f => exact (not_not.mp fun hne => whole ⟨hasks, hne⟩).trans hdocuments
    | ok b => rfl

theorem Holds.shows (h : Holds p held run) (loaded : run.loaded = true) (s : CountingStep) :
    ∃ b, held = some b ∧ s.view run.documents run.total = b.view s := by
  rw [h.loaded, Option.isSome_iff_exists] at loaded
  obtain ⟨b, rfl⟩ := loaded
  refine ⟨b, rfl, ?_⟩
  rw [h.documents, h.total]
  rfl

theorem Holds.whole_iff (h : Holds p held run) : Whole p held run c ↔ ¬ Tears p held c := by
  constructor
  · intro whole tears
    obtain ⟨asks, hne⟩ := h.tears_iff.mp tears
    obtain ⟨_, documents, hspilled, _⟩ := tears
    rw [← h.pipeline] at hspilled hne
    obtain ⟨f, hanswered⟩ := CountingCall.answered_of_spilled hspilled
    have hfails : (run.call c).1 = .error f := by
      rw [answer_of_asked asks, hanswered]
      rfl
    have hkept := whole.keeps f hfails
    rw [(call_error hfails).2] at hkept
    exact hne (congrArg Prod.fst hkept)
  · intro whole
    refine { keeps := ?keeps, shows := ?shows, silent := ?silent }
    case keeps =>
      intro f hfails
      obtain ⟨asks, hstored⟩ := call_error hfails
      rw [h.pipeline] at hstored
      have hsame : ((c.spilled? p.counted).map .list).getD run.documents = run.documents :=
        not_not.mp fun hne => whole (h.tears_iff.mpr ⟨asks, hne⟩)
      rw [hstored, hsame]
      rfl
    case shows =>
      intro v hv
      obtain ⟨loaded, hview⟩ := call_ok hv
      obtain ⟨b, hb, hshown⟩ := (h.call whole).shows loaded c.step
      exact ⟨b, hb, hshown.symm.trans hview⟩
    case silent =>
      intro loaded reads
      rw [h.toCounts.call_of_reading loaded reads]

end Step

section Run

variable {p : CompiledPipeline} {held : Option Batch} {run : CountingRun}

theorem after_concat (run : CountingRun) (before : List CountingCall) (c : CountingCall) :
    run.after (before ++ [c]) = ((run.after before).call c).2 := List.foldl_append

theorem Counts.after (h : Counts p held run) (calls : List CountingCall) :
    Counts p (lastLoaded p.counted held calls) (run.after calls) := by
  induction calls generalizing held run with
  | nil => exact h
  | cons c rest ih => exact ih (h.call c)

theorem forall_split_cons {α : Type} {P : List α → α → Prop} {x : α} {rest : List α} :
    (∀ before y behind, x :: rest = before ++ y :: behind → P before y) ↔
      P [] x ∧ ∀ before y behind, rest = before ++ y :: behind → P (x :: before) y := by
  constructor
  · intro h
    exact ⟨h [] x rest rfl, fun before y behind hsplit =>
      h (x :: before) y behind (congrArg (x :: ·) hsplit)⟩
  · rintro ⟨hfirst, hrest⟩ before y behind hsplit
    rcases List.cons_eq_append_iff.mp hsplit with ⟨rfl, h⟩ | ⟨before, rfl, h⟩
    · cases h
      exact hfirst
    · exact hrest before y behind h

theorem Holds.forall_whole_iff (h : Holds p held run) (calls : List CountingCall) :
    (∀ before c behind, calls = before ++ c :: behind →
        Whole p (lastLoaded p.counted held before) (run.after before) c) ↔
      ∀ before c behind, calls = before ++ c :: behind →
        ¬ Tears p (lastLoaded p.counted held before) c := by
  induction calls generalizing held run with
  | nil => simp
  | cons c rest ih =>
    -- behind a call that does not tear all that is stored is again of one answer
    rw [forall_split_cons, forall_split_cons]
    exact (and_congr_left fun _ => h.whole_iff).trans (and_congr_right fun hc => ih (h.call hc))

end Run

/-- What holds throughout all runs that count by a pipeline, whatever answers they get. -/
structure KeepsAnswers (p : CompiledPipeline) (start : CountingRun) : Prop where
  answers (before : List CountingCall) (c : CountingCall)
    (asks : c.asks (lastLoaded p.counted none before).isSome = true) :
    ((start.after before).call c).1 = (c.answered p.counted).map fun b => b.view c.step
  /-- Once an answer was loaded, a reading succeeds. It shows the total of the last one, changes
  nothing, and asks for nothing. -/
  reads (before : List CountingCall) (c : CountingCall) (b : Batch)
    (loaded : lastLoaded p.counted none before = some b) (reads : c.step.executes = false) :
    (start.after before).call c =
      (.ok (c.step.view (start.after before).documents b.total),
        { start.after before with collection := c.collection })
  fails (before : List CountingCall) (c : CountingCall) (f : Fault)
    (h : ((start.after before).call c).1 = .error f) :
    (start.after (before ++ [c])).stored =
      (((c.spilled? p.counted).map .list).getD (start.after before).documents,
        (start.after before).total, (start.after before).loaded)
  whole_iff (calls : List CountingCall) :
    (∀ before c behind, calls = before ++ c :: behind →
        Whole p (lastLoaded p.counted none before) (start.after before) c) ↔
      ∀ before c behind, calls = before ++ c :: behind →
        ¬ Tears p (lastLoaded p.counted none before) c

/-- A counting run keeps the answers that it loads. -/
theorem keepsAnswers (p : CompiledPipeline) (collection : Collection) :
    KeepsAnswers p { pipeline := p, collection } := by
  have hstart : Holds p none { pipeline := p, collection } := ⟨⟨rfl, rfl, rfl⟩, rfl⟩
  have hcounts (before : List CountingCall) := hstart.toCounts.after before
  refine {
    answers := ?answers
    reads := ?reads
    fails := ?fails
    whole_iff := hstart.forall_whole_iff }
  case answers =>
    intro before c asks
    rw [← (hcounts before).loaded] at asks
    rw [answer_of_asked asks, (hcounts before).pipeline]
  case reads =>
    intro before c b loaded reads
    have hb := hcounts before
    rw [loaded] at hb
    have htotal : (CountingRun.after { pipeline := p, collection } before).total = b.total :=
      hb.total
    rw [hb.call_of_reading rfl reads, ← htotal]
  case fails =>
    intro before c f h
    rw [after_concat, (call_error h).2, (hcounts before).pipeline]

/-- An answer whose total cannot be read leaves its documents beside the total of the answer that
was loaded before. -/
theorem result_torn :
    let p : CompiledPipeline := { stages := [], counted := true }
    let found (n : Int) (totals : Value) : Collection :=
      { mode := .atOnce
        answers := [[.map [("documents", .list [.map [("_id", .int n)]]), ("totalCount", totals)]]] }
    let whole : CountingCall :=
      { step := .execute false, collection := found 1 (.list [.map [("total", .int 1)]]) }
    let torn : CountingCall := { step := .execute false, collection := found 2 (.int 7) }
    let reading : CountingCall := { step := .result, collection := found 2 (.int 7) }
    let start : CountingRun := { pipeline := p, collection := found 1 .null }
    let held : Option Batch := some { documents := [.map [("_id", .int 1)]], total := .int 1 }
    lastLoaded p.counted none [whole, torn] = held ∧
      ((start.after [whole]).call torn).1 = .error (.mismatch .notIterable) ∧
      ((start.after [whole, torn]).call reading).1 = .ok (some (.map
        [("documents", .list [.map [("_id", .int 2)]]), ("totalCount", .int 1)])) ∧
      ¬ Whole p held (start.after [whole, torn]) reading ∧
      ¬ Whole p held (start.after [whole]) torn := by
  intro p found whole torn reading start held
  have hshown : ((start.after [whole, torn]).call reading).1 = .ok (some (.map
      [("documents", .list [.map [("_id", .int 2)]]), ("totalCount", .int 1)])) := rfl
  have hfails : ((start.after [whole]).call torn).1 = .error (.mismatch .notIterable) := rfl
  refine ⟨rfl, hfails, hshown, ?_, ?_⟩
  · intro h
    obtain ⟨b, hb, hview⟩ := h.shows _ hshown
    cases hb
    cases hview
  · intro h
    cases h.keeps _ hfails

end CountingRun

end QueryPipeline
