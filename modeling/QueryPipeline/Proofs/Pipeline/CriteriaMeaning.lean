import QueryPipeline.Pipeline.Order
import QueryPipeline.Proofs.Pipeline.Merging

namespace QueryPipeline.Criteria

/-- The truth of the atoms: of a field with a value, and of a field with an operator and its
operand. Equal keys are one field. -/
structure Atoms where
  plain : Scalar → Value → Prop
  operator : Scalar → String → Value → Prop
  plain_congr : ∀ {k l : Scalar}, (k == l) = true → ∀ v, plain k v ↔ plain l v
  operator_congr : ∀ {k l : Scalar}, (k == l) = true → ∀ op v, operator k op v ↔ operator l op v

section

variable (atoms : Atoms)

mutual

def Holds : Value → Prop
  | .map entries => EntriesHold entries
  | .keyed entries => DictHolds entries
  | _ => False

def EntriesHold : List (String × Value) → Prop
  | [] => True
  | (key, v) :: rest => EntryHolds (.text key) v ∧ EntriesHold rest

def DictHolds : List (Scalar × Value) → Prop
  | [] => True
  | (key, v) :: rest => EntryHolds key v ∧ DictHolds rest

/-- Under `$or` some document is true, under `$and` all are; a document of operators is true when
all its atoms are, and any other entry is one atom. -/
def EntryHolds (key : Scalar) : Value → Prop
  | .list documents =>
    if key == "$or" then SomeHolds documents
    else if key == "$and" then AllHold documents
    else atoms.plain key (.list documents)
  | v =>
    match operators? v with
    | some operators => ∀ e ∈ operators, atoms.operator key e.1 e.2
    | none => atoms.plain key v

def SomeHolds : List Value → Prop
  | [] => False
  | v :: rest => Holds v ∨ SomeHolds rest

def AllHold : List Value → Prop
  | [] => True
  | v :: rest => Holds v ∧ AllHold rest

end

end

def isLogical (key : Scalar) : Bool :=
  key == "$or" || key == "$and"

def fieldEntries (criteria : Dict) : Dict :=
  criteria.filter fun e => !isLogical e.1

variable {atoms : Atoms}

theorem dictHolds_iff {criteria : Dict} :
    DictHolds atoms criteria ↔ ∀ e ∈ criteria, EntryHolds atoms e.1 e.2 := by
  induction criteria with
  | nil => simp [DictHolds]
  | cons e rest ih => rw [DictHolds, ih, List.forall_mem_cons]

theorem someHolds_iff {documents : List Value} :
    SomeHolds atoms documents ↔ ∃ v ∈ documents, Holds atoms v := by
  induction documents with
  | nil => simp [SomeHolds]
  | cons v rest ih => simp [SomeHolds, ih]

theorem allHold_iff {documents : List Value} :
    AllHold atoms documents ↔ ∀ v ∈ documents, Holds atoms v := by
  induction documents with
  | nil => simp [AllHold]
  | cons v rest ih => rw [AllHold, ih, List.forall_mem_cons]

theorem entryHolds_or {documents : List Value} :
    EntryHolds atoms "$or" (.list documents) ↔ ∃ v ∈ documents, Holds atoms v := by
  rw [EntryHolds, if_pos (by rfl), someHolds_iff]

theorem entryHolds_and {documents : List Value} :
    EntryHolds atoms "$and" (.list documents) ↔ ∀ v ∈ documents, Holds atoms v := by
  rw [EntryHolds, if_neg (by simp), if_pos (by rfl), allHold_iff]

theorem entryHolds_operators {key : Scalar} {v : Value} {operators : Entries Value}
    (h : operators? v = some operators) :
    EntryHolds atoms key v ↔ ∀ e ∈ operators, atoms.operator key e.1 e.2 := by
  have hv : ∀ documents, v ≠ .list documents := fun documents he => by cases he ▸ h
  rw [EntryHolds, h]
  exact hv

theorem holds_orClause {alternatives : Value} :
    Holds atoms (orClause alternatives) ↔ EntryHolds atoms "$or" alternatives := by
  simp [orClause, Holds, EntriesHold]

/-- What the logical entries of criteria that are being merged say. -/
def LogicHolds (atoms : Atoms) (target : Dict) : Prop :=
  (∀ v, Entries.get? target "$or" = some v → EntryHolds atoms "$or" v) ∧
    ∀ v, Entries.get? target "$and" = some v → EntryHolds atoms "$and" v

def Extendable (target : Dict) : Prop :=
  ∃ clauses, clausesOf target = some clauses

theorem clausesOf_put_and (target : Dict) (clauses : List Value) :
    clausesOf (Entries.put target "$and" (.list clauses)) = some clauses := by
  rw [clausesOf, Entries.get?_put_of_beq _ _ (by rfl)]

theorem clausesOf_put_of_ne {target : Dict} {key : Scalar} (h : (key == "$and") = false)
    (value : Value) : clausesOf (Entries.put target key value) = clausesOf target := by
  rw [clausesOf, Entries.get?_put_of_ne _ _ h, clausesOf]

theorem eq_list_of_clausesOf {target : Dict} {clauses : List Value} {old : Value}
    (present : Entries.get? target "$and" = some old) (h : clausesOf target = some clauses) :
    old = .list clauses := by
  rw [clausesOf, present] at h
  cases old with
  | list more => rw [Option.some.inj h]
  | scalar => cases h
  | map => cases h
  | keyed => cases h

theorem entryHolds_and_iff_clausesOf {target : Dict} {clauses : List Value}
    (h : clausesOf target = some clauses) :
    (∀ v, Entries.get? target "$and" = some v → EntryHolds atoms "$and" v) ↔
      ∀ v ∈ clauses, Holds atoms v := by
  rw [clausesOf] at h
  split at h
  · rename_i absent
    cases h
    simp [absent]
  · rename_i listed
    cases h
    simp [listed, entryHolds_and]
  · cases h

theorem isLogical_eq_false_iff {key : Scalar} :
    isLogical key = false ↔ (key == "$or") = false ∧ (key == "$and") = false := by
  rw [isLogical, Bool.or_eq_false_iff]

theorem isLogical_eq_false {key : Scalar} (hor : key ≠ "$or") (hand : key ≠ "$and") :
    isLogical key = false :=
  isLogical_eq_false_iff.mpr
    ⟨Scalar.beq_text_eq_false_iff.mpr hor, Scalar.beq_text_eq_false_iff.mpr hand⟩

/-- The entry comes behind a value of its key with which it cannot stand. -/
def ClashesIn (target : Dict) (e : Scalar × Value) : Prop :=
  ∃ old, Entries.get? target e.1 = some old ∧ Clashes old e.2

theorem merges_or_clashes {target : Dict} (ht : Extendable target) {e : Scalar × Value}
    (hv : e.1 = "$and" → ∃ documents, e.2 = .list documents) :
    (∃ merged, Merges target e.1 e.2 merged) ∨
      isLogical e.1 = false ∧ ClashesIn target e ∧ mergeEntry target e.1 e.2 = .error .notText := by
  obtain ⟨key, value⟩ := e
  cases hg : Entries.get? target key with
  | none => exact .inl ⟨_, .fresh hg⟩
  | some old =>
    by_cases hor : key = "$or"
    · subst hor
      obtain ⟨clauses, hc⟩ := ht
      exact .inl ⟨_, .alternatives hg hc⟩
    · by_cases hand : key = "$and"
      · subst hand
        obtain ⟨documents, rfl⟩ := hv rfl
        obtain ⟨clauses, hc⟩ := ht
        cases eq_list_of_clausesOf hg hc
        exact .inl ⟨_, .conjuncts hg rfl⟩
      · by_cases clash : Clashes old value
        · exact .inr ⟨isLogical_eq_false hor hand, ⟨old, hg, clash⟩,
            mergeEntry_clash hg hor hand clash⟩
        · exact .inl ⟨_, .collision hg hor hand clash⟩

theorem Merges.not_clashesIn {target merged : Dict} {key : Scalar} {value : Value}
    (h : Merges target key value merged) (hkey : isLogical key = false) :
    ¬ClashesIn target (key, value) := by
  rintro ⟨old, hg, clash⟩
  cases h with
  | fresh absent => cases absent.symm.trans hg
  | alternatives => cases hkey
  | conjuncts => cases hkey
  | collision present _ _ compatible =>
    cases present.symm.trans hg
    exact compatible clash

theorem logicHolds_put_field {target : Dict} {key : Scalar} (h : isLogical key = false)
    (value : Value) :
    LogicHolds atoms (Entries.put target key value) ↔ LogicHolds atoms target := by
  obtain ⟨hor, hand⟩ := isLogical_eq_false_iff.mp h
  rw [LogicHolds, Entries.get?_put_of_ne _ _ hor, Entries.get?_put_of_ne _ _ hand, LogicHolds]

theorem logicHolds_put_or {target : Dict} (absent : Entries.get? target "$or" = none)
    (value : Value) : LogicHolds atoms (Entries.put target "$or" value) ↔
      LogicHolds atoms target ∧ EntryHolds atoms "$or" value := by
  have hand : Entries.get? (Entries.put target "$or" value) "$and" = Entries.get? target "$and" :=
    Entries.get?_put_of_ne _ _ (by rfl)
  rw [LogicHolds, Entries.get?_put_of_beq _ _ (by rfl), hand, LogicHolds, absent]
  simp [and_comm]

theorem logicHolds_put_and {target : Dict} {clauses : List Value} (documents : List Value)
    (h : clausesOf target = some clauses) :
    LogicHolds atoms (Entries.put target "$and" (.list (clauses ++ documents))) ↔
      LogicHolds atoms target ∧ ∀ v ∈ documents, Holds atoms v := by
  have hor : Entries.get? (Entries.put target "$and" (.list (clauses ++ documents))) "$or" =
      Entries.get? target "$or" := Entries.get?_put_of_ne _ _ (by rfl)
  rw [LogicHolds, hor, entryHolds_and_iff_clausesOf (clausesOf_put_and target _),
    List.forall_mem_append, LogicHolds, entryHolds_and_iff_clausesOf h, and_assoc]

theorem logicHolds_erase_or {target : Dict} {old : Value}
    (present : Entries.get? target "$or" = some old) :
    LogicHolds atoms target ↔
      LogicHolds atoms (Entries.erase target "$or") ∧ EntryHolds atoms "$or" old := by
  have hand : Entries.get? (Entries.erase target "$or") "$and" = Entries.get? target "$and" :=
    Entries.get?_erase_of_ne _ (by rfl)
  rw [LogicHolds, LogicHolds, hand, Entries.get?_erase_self, present]
  simp [and_comm]

theorem Merges.extendable {target merged : Dict} {key : Scalar} {value : Value}
    (h : Merges target key value merged) (ht : Extendable target)
    (hv : key = "$and" → ∃ documents, value = .list documents) : Extendable merged := by
  obtain ⟨clauses, hc⟩ := ht
  cases h with
  | fresh absent =>
    by_cases hand : key = "$and"
    · subst hand
      obtain ⟨documents, rfl⟩ := hv rfl
      exact ⟨documents, clausesOf_put_and _ _⟩
    · exact ⟨clauses, by rw [clausesOf_put_of_ne (Scalar.beq_text_eq_false_iff.mpr hand), hc]⟩
  | alternatives => exact ⟨_, clausesOf_put_and _ _⟩
  | @conjuncts old _ _ present added =>
    obtain ⟨documents, rfl⟩ := hv rfl
    rw [eq_list_of_clausesOf present hc] at added
    cases added
    exact ⟨_, clausesOf_put_and _ _⟩
  | collision present notOr notAnd _ =>
    exact ⟨clauses, by rw [clausesOf_put_of_ne (Scalar.beq_text_eq_false_iff.mpr notAnd), hc]⟩

theorem Merges.logicHolds {target merged : Dict} {key : Scalar} {value : Value}
    (h : Merges target key value merged) (ht : Extendable target)
    (hv : key = "$and" → ∃ documents, value = .list documents) :
    LogicHolds atoms merged ↔
      LogicHolds atoms target ∧ (isLogical key = true → EntryHolds atoms key value) := by
  obtain ⟨clauses, hc⟩ := ht
  cases h with
  | fresh absent =>
    by_cases hor : key = "$or"
    · subst hor
      rw [logicHolds_put_or absent, forall_prop_of_true (by rfl)]
    · by_cases hand : key = "$and"
      · subst hand
        obtain ⟨documents, rfl⟩ := hv rfl
        have hnil : clausesOf target = some [] := by rw [clausesOf, absent]
        rw [forall_prop_of_true (by rfl), entryHolds_and]
        exact logicHolds_put_and documents hnil
      · have hl := isLogical_eq_false hor hand
        rw [logicHolds_put_field hl, hl]
        simp
  | @alternatives old _ listed present under =>
    have hrest : clausesOf (Entries.erase target "$or") = some listed := by
      rw [clausesOf, Entries.get?_erase_of_ne _ (by rfl), ← under, clausesOf]
    rw [logicHolds_put_and _ hrest, logicHolds_erase_or present, forall_prop_of_true (by rfl)]
    simp only [List.mem_cons, List.not_mem_nil, or_false, forall_eq_or_imp, forall_eq,
      holds_orClause, and_assoc]
  | @conjuncts old _ _ present added =>
    obtain ⟨documents, rfl⟩ := hv rfl
    rw [eq_list_of_clausesOf present hc] at added
    cases added
    rw [logicHolds_put_and documents hc, forall_prop_of_true (by rfl), entryHolds_and]
  | collision present notOr notAnd _ =>
    have hl := isLogical_eq_false notOr notAnd
    rw [logicHolds_put_field hl, hl]
    simp

theorem isLogical_congr {k l : Scalar} (h : (k == l) = true) : isLogical k = isLogical l := by
  rw [isLogical, BEq.congr_left h, BEq.congr_left h, isLogical]

theorem eq_of_isLogical {key : Scalar} (h : isLogical key = true) : key = "$or" ∨ key = "$and" := by
  rw [isLogical, Bool.or_eq_true] at h
  rcases h with h | h
  · exact .inl (Scalar.beq_text_iff.mp h)
  · exact .inr (Scalar.beq_text_iff.mp h)

theorem fieldEntries_cons_logical {e : Scalar × Value} (h : isLogical e.1 = true) (rest : Dict) :
    fieldEntries (e :: rest) = fieldEntries rest :=
  List.filter_cons_of_neg (by rw [h]; decide)

theorem fieldEntries_cons_field {e : Scalar × Value} (h : isLogical e.1 = false) (rest : Dict) :
    fieldEntries (e :: rest) = e :: fieldEntries rest :=
  List.filter_cons_of_pos (by rw [h]; decide)

theorem fieldEntries_put_logical {key : Scalar} (h : isLogical key = true) (target : Dict)
    (value : Value) : fieldEntries (Entries.put target key value) = fieldEntries target := by
  rw [Entries.put_eq_putWith]
  exact Entries.filter_putWith_of_false (p := fun k => !isLogical k)
    (fun _ hk => by rw [isLogical_congr hk]) (by rw [h, Bool.not_true]) _ _ _

theorem fieldEntries_putWith_field {key : Scalar} (h : isLogical key = false)
    (f : Value → Value → Value) (target : Dict) (value : Value) :
    fieldEntries (Entries.putWith f target key value) =
      Entries.putWith f (fieldEntries target) key value :=
  Entries.filter_putWith_of_true (p := fun k => !isLogical k)
    (fun _ hk => by rw [isLogical_congr hk]) (by rw [h, Bool.not_false]) _ _ _

theorem fieldEntries_erase_or (target : Dict) :
    fieldEntries (Entries.erase target "$or") = fieldEntries target := by
  rw [fieldEntries, Entries.erase, List.filter_filter, fieldEntries]
  congr
  funext e
  rw [isLogical]
  cases e.1 == "$or" <;> simp

theorem Merges.fieldEntries_eq {target merged : Dict} {key : Scalar} {value : Value}
    (h : Merges target key value merged) :
    fieldEntries merged = if isLogical key then fieldEntries target
      else Entries.putWith later (fieldEntries target) key value := by
  cases h with
  | fresh absent =>
    cases hl : isLogical key with
    | true => exact fieldEntries_put_logical hl _ _
    | false =>
      rw [← Entries.putWith_of_get?_eq_none absent later]
      exact fieldEntries_putWith_field hl _ _ _
  | alternatives =>
    rw [if_pos (by rfl), fieldEntries_put_logical (by rfl), fieldEntries_erase_or]
  | conjuncts => rw [if_pos (by rfl), fieldEntries_put_logical (by rfl)]
  | collision present notOr notAnd _ =>
    have hl := isLogical_eq_false notOr notAnd
    rw [← Entries.putWith_of_get?_eq_some present later, fieldEntries_putWith_field hl, hl,
      if_neg Bool.false_ne_true]

theorem clashesIn_fieldEntries {target : Dict} {e : Scalar × Value} (h : isLogical e.1 = false) :
    ClashesIn (fieldEntries target) e ↔ ClashesIn target e := by
  have hget : Entries.get? (fieldEntries target) e.1 = Entries.get? target e.1 :=
    Entries.get?_filter (fun x hx => by rw [isLogical_congr hx, h, Bool.not_false]) target
  rw [ClashesIn, hget, ClashesIn]

/-- Where no key comes twice, the logical entries and the fields say everything. -/
theorem dictHolds_iff_of_distinct {criteria : Dict} (h : Entries.Distinct criteria) :
    DictHolds atoms criteria ↔
      LogicHolds atoms criteria ∧ ∀ e ∈ fieldEntries criteria, EntryHolds atoms e.1 e.2 := by
  have under {key : String} {v : Value} (hall : ∀ e ∈ criteria, EntryHolds atoms e.1 e.2)
      (hv : Entries.get? criteria (Scalar.text key) = some v) : EntryHolds atoms (.text key) v := by
    obtain ⟨e, he, hk, rfl⟩ := Entries.mem_of_get?_eq_some hv
    rw [← Scalar.beq_text_iff.mp hk]
    exact hall e he
  rw [dictHolds_iff]
  constructor
  · intro hall
    exact ⟨⟨fun _ => under hall, fun _ => under hall⟩, fun e he => hall e (List.mem_filter.mp he).1⟩
  · intro hparts e he
    obtain ⟨⟨hor, hand⟩, hfields⟩ := hparts
    cases hl : isLogical e.1 with
    | false => exact hfields e (List.mem_filter.mpr ⟨he, by rw [hl, Bool.not_false]⟩)
    | true =>
      rcases eq_of_isLogical hl with hk | hk
      · have hg := h.get?_eq_some he (Scalar.beq_text_iff.mpr hk)
        rw [hk]
        exact hor _ hg
      · have hg := h.get?_eq_some he (Scalar.beq_text_iff.mpr hk)
        rw [hk]
        exact hand _ hg

end QueryPipeline.Criteria
