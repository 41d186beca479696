import QueryPipeline.Proofs.Entries
import QueryPipeline.Settings.Registry

namespace QueryPipeline.Registry

inductive Call where
  | configure (arguments : Arguments)
  | get

def call (r : Registry) : Call → Except Fault Settings × Registry
  | .configure arguments =>
    match r.configure arguments with
    | .ok configured => (.ok configured.settings, configured)
    | .error f => (.error f, r)
  | .get => (.ok r.get.1, r.get.2)

/-- The registry that a run of calls leads to; a call that fails does not end the run. -/
def run (r : Registry) (calls : List Call) : Registry :=
  calls.foldl (fun reached c => (reached.call c).2) r

def answer (r : Registry) (before : List Call) (c : Call) : Except Fault Settings :=
  ((r.run before).call c).1

def answers (r : Registry) : List Call → List (Except Fault Settings)
  | [] => []
  | c :: rest => (r.call c).1 :: (r.call c).2.answers rest

/-- What the last call answers that succeeds, or the settings of the registry when all fail. -/
def lastAnswered (r : Registry) (calls : List Call) : Settings :=
  ((r.answers calls).filterMap Except.toOption).getLast?.getD r.settings

/-- The call has one value for each parameter, so it is made. -/
structure Arguments.Binds (arguments : Arguments) : Prop where
  keywords : ∀ e ∈ arguments.keywords, e.1 ≠ Settings.receiverName
  settings : arguments.placed = none ∨ arguments.named = none

def Arguments.offered (arguments : Arguments) : Except Fault Settings :=
  match arguments.given with
  | some settings => if arguments.keywords.isEmpty then .ok settings else .error .settingsTwice
  | none => Settings.create arguments.keywords

section Call

variable {r : Registry} {arguments : Arguments}

theorem Arguments.Binds.bind_eq (h : arguments.Binds) :
    arguments.bind = .ok (arguments.given, arguments.keywords) := by
  have hkeywords : Entries.has arguments.keywords Settings.receiverName = false := by
    rw [Entries.has, Entries.get?_eq_none_iff.mpr fun e he => beq_false_of_ne (h.keywords e he)]
    rfl
  have hsettings : (arguments.placed.isSome && arguments.named.isSome) = false := by
    rcases h.settings with hnone | hnone <;> simp [hnone]
  rw [Arguments.bind, hkeywords, hsettings]
  rfl

theorem Arguments.bind_of_not_binds (h : ¬arguments.Binds) :
    arguments.bind = .error .keywordTaken := by
  rw [Arguments.bind]
  split
  · rfl
  · rename_i hkeywords
    split
    · rfl
    · rename_i hsettings
      rw [Entries.has, Bool.not_eq_true, Option.isSome_eq_false_iff, Option.isNone_iff_eq_none,
        Entries.get?_eq_none_iff] at hkeywords
      rw [Bool.not_eq_true, Bool.and_eq_false_iff, Option.isSome_eq_false_iff,
        Option.isSome_eq_false_iff, Option.isNone_iff_eq_none, Option.isNone_iff_eq_none]
        at hsettings
      exact absurd ⟨fun e he => ne_of_beq_false (hkeywords e he), hsettings⟩ h

theorem configure_of_binds (h : arguments.Binds) :
    r.configure arguments =
      if r.frozen then .error .settingsFrozen
      else arguments.offered.map fun settings => { r with settings } := by
  rw [configure, h.bind_eq, Arguments.offered]
  cases r.frozen with
  | true => rfl
  | false =>
    cases arguments.given with
    | none => rfl
    | some settings => cases arguments.keywords <;> rfl

theorem configure_of_not_binds (h : ¬arguments.Binds) :
    r.configure arguments = .error (.mismatch .keywordTaken) := by
  rw [configure, Arguments.bind_of_not_binds h]
  rfl

theorem call_configure (r : Registry) (arguments : Arguments) :
    r.call (.configure arguments) =
      match r.configure arguments with
      | .ok configured => (.ok configured.settings, configured)
      | .error f => (.error f, r) := rfl

theorem call_of_not_binds (h : ¬arguments.Binds) :
    r.call (.configure arguments) = (.error (.mismatch .keywordTaken), r) := by
  rw [call_configure, configure_of_not_binds h]

theorem call_of_open (h : r.frozen = false) (hb : arguments.Binds) :
    r.call (.configure arguments) =
      (arguments.offered, { r with settings := arguments.offered.toOption.getD r.settings }) := by
  obtain ⟨settings, frozen⟩ := r
  cases h
  rw [call_configure, configure_of_binds hb, if_neg Bool.false_ne_true]
  cases arguments.offered <;> rfl

theorem call_of_frozen (h : r.frozen = true) (hb : arguments.Binds) :
    r.call (.configure arguments) = (.error .settingsFrozen, r) := by
  rw [call_configure, configure_of_binds hb, if_pos h]

theorem call_of_error {c : Call} {f : Fault} (h : (r.call c).1 = .error f) :
    (r.call c).2 = r := by
  cases c with
  | get => cases h
  | configure arguments =>
    rw [call_configure] at h ⊢
    split at h
    · cases h
    · rfl

theorem settings_call (r : Registry) (c : Call) :
    (r.call c).2.settings = (r.call c).1.toOption.getD r.settings := by
  cases c with
  | get => rfl
  | configure arguments =>
    rw [call_configure]
    split <;> rfl

theorem frozen_call (r : Registry) (c : Call) :
    (r.call c).2.frozen = true ↔ r.frozen = true ∨ .get = c := by
  cases c with
  | get => exact ⟨fun _ => .inr rfl, fun _ => rfl⟩
  | configure arguments =>
    by_cases hb : arguments.Binds
    · cases h : r.frozen with
      | true => simp [call_of_frozen h hb, h]
      | false => simp [call_of_open h hb, h]
    · simp [call_of_not_binds hb]

theorem call_frozen_eq (h : r.frozen = true) (c : Call) : (r.call c).2 = r := by
  cases c with
  | get => exact congrArg (Registry.mk r.settings) h.symm
  | configure arguments =>
    by_cases hb : arguments.Binds
    · rw [call_of_frozen h hb]
    · rw [call_of_not_binds hb]

end Call

section Run

variable {r : Registry}

theorem run_cons (r : Registry) (c : Call) (rest : List Call) :
    r.run (c :: rest) = (r.call c).2.run rest := rfl

theorem run_append (r : Registry) (before after : List Call) :
    r.run (before ++ after) = (r.run before).run after := List.foldl_append

theorem run_concat (r : Registry) (before : List Call) (c : Call) :
    r.run (before ++ [c]) = ((r.run before).call c).2 := run_append r before [c]

theorem frozen_run_iff (calls : List Call) :
    (r.run calls).frozen = true ↔ r.frozen = true ∨ .get ∈ calls := by
  induction calls generalizing r with
  | nil => simp [run]
  | cons c rest ih => rw [run_cons, ih, frozen_call, List.mem_cons, or_assoc]

theorem run_of_frozen (h : r.frozen = true) (calls : List Call) : r.run calls = r := by
  induction calls with
  | nil => rfl
  | cons c rest ih => rw [run_cons, call_frozen_eq h, ih]

theorem lastAnswered_cons (r : Registry) (c : Call) (rest : List Call) :
    r.lastAnswered (c :: rest) = (r.call c).2.lastAnswered rest := by
  rw [lastAnswered, lastAnswered, answers, settings_call]
  cases (r.call c).1 with
  | error f => rfl
  | ok settings =>
    simp only [List.filterMap_cons, Except.toOption, List.getLast?_cons, Option.getD_some]

theorem settings_run (r : Registry) (calls : List Call) :
    (r.run calls).settings = r.lastAnswered calls := by
  induction calls generalizing r with
  | nil => rfl
  | cons c rest ih => rw [run_cons, ih, lastAnswered_cons]

end Run

/-- What holds throughout all runs of a registry with the given settings. -/
structure KeepsDefaults (initial : Settings) : Prop where
  accepts (before : List Call) (unread : .get ∉ before) (arguments : Arguments)
    (binds : arguments.Binds) :
    answer { settings := initial } before (.configure arguments) = arguments.offered
  /-- The first reading gives what the last configuration gave that succeeded before, and so does
  every later one. -/
  reads (before later : List Call) (unread : .get ∉ before) :
    answer { settings := initial } before .get =
        .ok (lastAnswered { settings := initial } before) ∧
      answer { settings := initial } (before ++ .get :: later) .get =
        .ok (lastAnswered { settings := initial } before)
  frozen_iff (before : List Call) :
    (run { settings := initial } before).frozen = true ↔ .get ∈ before
  refuses (before : List Call) (read : .get ∈ before) (arguments : Arguments)
    (binds : arguments.Binds) :
    answer { settings := initial } before (.configure arguments) = .error .settingsFrozen
  /-- A call that does not bind its arguments is no configuration: it fails before it is one. -/
  unbound (before : List Call) (arguments : Arguments) (h : ¬arguments.Binds) :
    answer { settings := initial } before (.configure arguments) =
      .error (.mismatch .keywordTaken)
  keeps (before : List Call) (arguments : Arguments) (f : Fault)
    (h : answer { settings := initial } before (.configure arguments) = .error f) :
    run { settings := initial } (before ++ [.configure arguments]) =
      run { settings := initial } before

/-- Defaults do not change once they were read. -/
theorem keepsDefaults (initial : Settings) : KeepsDefaults initial := by
  have hfrozen (before : List Call) :
      (run { settings := initial } before).frozen = true ↔ .get ∈ before := by
    rw [frozen_run_iff]
    simp
  refine {
    accepts := ?accepts
    reads := ?reads
    frozen_iff := hfrozen
    refuses := ?refuses
    unbound := ?unbound
    keeps := ?keeps }
  case accepts =>
    intro before unread arguments binds
    have hopen : (run { settings := initial } before).frozen = false :=
      Bool.eq_false_iff.mpr (mt (hfrozen before).mp unread)
    rw [answer, call_of_open hopen binds]
  case reads =>
    intro before later unread
    have hlast := settings_run { settings := initial } before
    refine ⟨congrArg Except.ok hlast, ?_⟩
    have hread : ((run { settings := initial } before).call .get).2.frozen = true := rfl
    rw [answer, run_append, run_cons, run_of_frozen hread]
    exact congrArg Except.ok hlast
  case refuses =>
    intro before read arguments binds
    rw [answer, call_of_frozen ((hfrozen before).mpr read) binds]
  case unbound =>
    intro before arguments h
    rw [answer, call_of_not_binds h]
  case keeps =>
    intro before arguments f h
    rw [run_concat, call_of_error h]

example (s : Settings) : answer { settings := {} } [] (.configure { named := some (some s) }) =
    .ok s := rfl

example (s : Settings) : answer { settings := {} } [.get] (.configure { named := some (some s) }) =
    .error .settingsFrozen := rfl

example : answer { settings := {} } [.get] (.configure (.ofPlaced none [("settings", .null)])) =
    .error (.mismatch .keywordTaken) := rfl

end QueryPipeline.Registry
