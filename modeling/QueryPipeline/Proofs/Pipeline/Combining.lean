import QueryPipeline.Pipeline.Criteria
import QueryPipeline.Proofs.Entries

namespace QueryPipeline.Criteria

/-- The entries of a document of operators: a map that has entries, and operators only as keys. -/
def operators? : Value → Option (Entries Value)
  | .map entries => (some entries).filter isOperatorDocument
  | .keyed entries => (Dict.entries? entries).filter isOperatorDocument
  | _ => none

/-- A map in which only operators stand before a key that is no text. -/
def Unreadable (v : Value) : Prop :=
  ∃ (operators : Entries Value) (key : Scalar) (value : Value) (rest : Dict),
    v = .keyed (Dict.ofEntries operators ++ (key, value) :: rest) ∧
      (∀ e ∈ operators, isOperator e.1 = true) ∧ ∀ s, key ≠ .text s

/-- Two values that cannot stand under one key. The later one is looked at only behind a document of
operators. -/
def Clashes (old new : Value) : Prop :=
  Unreadable old ∨ operators? old ≠ none ∧ Unreadable new

/-- The value of a key that comes again. -/
def later (old new : Value) : Value :=
  match operators? old, operators? new with
  | some operators, some more => .map (Entries.update operators more)
  | _, _ => new

variable {v old new : Value}

theorem not_unreadable_nil : ¬Unreadable (.keyed []) := by
  rintro ⟨operators, key, value, rest, heq, _⟩
  cases operators <;> cases heq

theorem unreadable_cons_iff {e : Scalar × Value} {rest : Dict} :
    Unreadable (.keyed (e :: rest)) ↔ (∀ s, e.1 ≠ .text s) ∨
      ∃ op, e.1 = .text op ∧ isOperator op = true ∧ Unreadable (.keyed rest) := by
  constructor
  · rintro ⟨operators, key, value, after, heq, hop, hkey⟩
    cases operators with
    | nil =>
      cases heq
      exact .inl hkey
    | cons op operators =>
      obtain ⟨ho, hoperators⟩ := List.forall_mem_cons.mp hop
      cases heq
      exact .inr ⟨op.1, rfl, ho, operators, key, value, after, rfl, hoperators, hkey⟩
  · rintro (hkey | ⟨op, hkey, hop, operators, key, value, after, heq, hoperators, hother⟩)
    · exact ⟨[], e.1, e.2, rest, rfl, nofun, hkey⟩
    · obtain ⟨_, v⟩ := e
      cases hkey
      cases heq
      exact ⟨(op, v) :: operators, key, value, after, rfl,
        List.forall_mem_cons.mpr ⟨hop, hoperators⟩, hother⟩

theorem readOperators_unreadable {entries : Dict} (h : Unreadable (.keyed entries)) :
    readOperators entries = .error .notText := by
  induction entries with
  | nil => exact absurd h not_unreadable_nil
  | cons e rest ih =>
    obtain ⟨key, v⟩ := e
    rcases unreadable_cons_iff.mp h with hkey | ⟨op, hkey, hop, hrest⟩
    · cases key with
      | text s => exact absurd rfl (hkey s)
      | _ => rfl
    · cases hkey
      rw [readOperators, if_pos hop, ih hrest]
      rfl

theorem readOperators_readable {entries : Dict} (h : ¬Unreadable (.keyed entries)) :
    readOperators entries =
      .ok ((Dict.entries? entries).filter fun es => es.all fun e => isOperator e.1) := by
  induction entries with
  | nil => rfl
  | cons e rest ih =>
    obtain ⟨key, v⟩ := e
    rw [unreadable_cons_iff, not_or, not_exists] at h
    cases key with
    | text key =>
      cases hop : isOperator key with
      | true =>
        have hrest := ih fun hrest => h.2 key ⟨rfl, hop, hrest⟩
        rw [readOperators, if_pos hop, hrest, Dict.entries?]
        cases Dict.entries? rest with
        | none => rfl
        | some es =>
          rw [Option.map_some, Option.filter_some, Option.filter_some, List.all_cons, hop,
            Bool.true_and]
          cases es.all fun e => isOperator e.1 <;> rfl
      | false =>
        rw [readOperators, if_neg (Bool.eq_false_iff.mp hop), Dict.entries?]
        cases Dict.entries? rest with
        | none => rfl
        | some es =>
          rw [Option.map_some, Option.filter_some, List.all_cons, hop, Bool.false_and,
            if_neg Bool.false_ne_true]
    | _ => exact absurd (fun s => nofun) h.1

theorem not_unreadable_of_ne_keyed (h : ∀ entries, v ≠ .keyed entries) : ¬Unreadable v := by
  rintro ⟨operators, key, value, rest, heq, _⟩
  exact h _ heq

theorem operatorsOf_unreadable (h : Unreadable v) : operatorsOf v = .error .notText := by
  cases v with
  | keyed entries =>
    cases entries with
    | nil => exact absurd h not_unreadable_nil
    | cons e rest => exact readOperators_unreadable h
  | _ => exact absurd h (not_unreadable_of_ne_keyed nofun)

theorem operatorsOf_readable (h : ¬Unreadable v) : operatorsOf v = .ok (operators? v) := by
  cases v with
  | map entries => rfl
  | keyed entries =>
    cases entries with
    | nil => rfl
    | cons e rest =>
      rw [operatorsOf, readOperators_readable h, operators?]
      congr 1
      obtain ⟨key, v⟩ := e
      cases key with
      | text key =>
        rw [Dict.entries?]
        cases Dict.entries? rest <;> rfl
      | _ => rfl
  | _ => rfl

theorem isOperatorDocument_append {old new : Entries Value} (ho : isOperatorDocument old = true)
    (hn : isOperatorDocument new = true) : isOperatorDocument (old ++ new) = true := by
  rw [isOperatorDocument, Bool.and_eq_true] at ho hn ⊢
  refine ⟨?_, by rw [List.all_append, ho.2, hn.2, Bool.and_self]⟩
  cases old with
  | nil => exact hn.1
  | cons => rfl

theorem isOperatorDocument_of_operators? {operators : Entries Value}
    (h : operators? v = some operators) : isOperatorDocument operators = true := by
  cases v with
  | map entries =>
    rw [operators?] at h
    exact (Option.filter_eq_some_iff.mp h).2
  | keyed entries =>
    rw [operators?] at h
    exact (Option.filter_eq_some_iff.mp h).2
  | _ => cases h

theorem operators?_map {operators : Entries Value} (h : isOperatorDocument operators = true) :
    operators? (.map operators) = some operators :=
  Option.filter_eq_some_iff.mpr ⟨rfl, h⟩

theorem later_eq {operators more : Entries Value} (ho : operators? old = some operators)
    (hn : operators? new = some more) (hd : Entries.Distinct (operators ++ more)) :
    later old new = .map (operators ++ more) := by
  rw [later, ho, hn]
  exact congrArg Value.map (Entries.update_of_distinct hd)

theorem operators?_later {operators more : Entries Value} (ho : operators? old = some operators)
    (hn : operators? new = some more) (hd : Entries.Distinct (operators ++ more)) :
    operators? (later old new) = some (operators ++ more) := by
  rw [later_eq ho hn hd]
  exact operators?_map (isOperatorDocument_append (isOperatorDocument_of_operators? ho)
    (isOperatorDocument_of_operators? hn))

theorem entries?_eq_none {operators : Entries Value} {key : Scalar} {value : Value} {rest : Dict}
    (h : ∀ s, key ≠ .text s) :
    Dict.entries? (Dict.ofEntries operators ++ (key, value) :: rest) = none := by
  induction operators with
  | nil =>
    cases key with
    | text s => exact absurd rfl (h s)
    | _ => rfl
  | cons op operators ih =>
    rw [Dict.ofEntries, List.map_cons, List.cons_append, Dict.entries?]
    exact congrArg (Option.map _) ih

theorem readable_of_operators? {operators : Entries Value} (h : operators? v = some operators) :
    ¬Unreadable v := by
  rintro ⟨ahead, key, value, rest, rfl, _, hkey⟩
  rw [operators?, entries?_eq_none hkey] at h
  cases h

theorem later_readable (h : ¬Unreadable new) : ¬Unreadable (later old new) := by
  rw [later]
  split
  · exact not_unreadable_of_ne_keyed nofun
  · exact h

theorem combine_clash (h : Clashes old new) : combine old new = .error .notText := by
  rw [combine]
  by_cases hold : Unreadable old
  · rw [operatorsOf_unreadable hold]
    rfl
  · obtain ⟨hsome, hnew⟩ := h.resolve_left hold
    rw [operatorsOf_readable hold]
    cases ho : operators? old with
    | none => exact absurd ho hsome
    | some operators =>
      change (operatorsOf new >>= _) = _
      rw [operatorsOf_unreadable hnew]
      rfl

theorem combine_of_not_clashes (h : ¬Clashes old new) : combine old new = .ok (later old new) := by
  obtain ⟨hold, hnew⟩ := not_or.mp h
  rw [combine, operatorsOf_readable hold, later]
  cases ho : operators? old with
  | none => rfl
  | some operators =>
    have hread : operatorsOf new = .ok (operators? new) :=
      operatorsOf_readable fun hu => hnew ⟨by simp [ho], hu⟩
    change (operatorsOf new >>= _) = _
    rw [hread]
    cases operators? new <;> rfl

end QueryPipeline.Criteria
