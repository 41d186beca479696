import QueryPipeline.Clause.Coerce
import QueryPipeline.Proofs.Number.Range
import QueryPipeline.Proofs.Outcome

namespace QueryPipeline.Coerce

/-- What a value of a type is: a number, a moment, a truth value, or the value `v` that was
given. -/
def Lands : Option FieldType → Value → Value → Prop
  | some .number, _, w => (∃ n, w = .int n) ∨ ∃ x, w = .float x ∧ x.isFinite = true
  | some .date, _, w => ∃ t, w = .moment t
  | some .boolean, _, w => ∃ b, w = .bool b
  | _, v, w => w = v

/-- The values whose conversion fails without their being refused. -/
inductive Escapes : Option FieldType → Value → Prop where
  /-- a text in the form of a timestamp that is no integer that is read -/
  | misread {s : String} (form : isTimestamp s = true) (unread : Numeral.int? s = none) :
    Escapes (some .date) (.text s)
  | longTimestamp {n : Int} (h : 10 ^ Numeral.maxDigits ≤ n.natAbs) : Escapes (some .date) (.int n)
  | longPart {type : FieldType} {v : Value} (typed : type = .number ∨ type = .date)
    (compound : ∀ s, v ≠ .scalar s) (h : v.isQuotable = false) : Escapes (some type) v

inductive Comes (field : String) (type : Option FieldType) (v : Value) :
    Except Fault Value → Prop where
  | converted {w : Value} (lands : Lands type v w) (h : ¬Escapes type v) :
    Comes field type v (.ok w)
  | refused (shown : Value) {expected : FieldType} (typed : type = some expected)
    (h : ¬Escapes type v) : Comes field type v (.error (.invalidValue field shown expected))
  | escaped (h : Escapes type v) : Comes field type v (.error (.mismatch .notInteger))

section

variable {field : String} {type : Option FieldType} {v w : Value}

theorem comes_refuse_of_quotable {shown : Value} {expected : FieldType}
    (typed : type = some expected) (hquotable : shown.isQuotable = true) (h : ¬Escapes type v) :
    Comes field type v (.error (refuse field shown expected)) := by
  rw [refuse, if_pos hquotable]
  exact .refused shown typed h

theorem comes_refuse {shown : Value} {expected : FieldType} (typed : type = some expected)
    (h : shown.isQuotable = false ↔ Escapes type v) :
    Comes field type v (.error (refuse field shown expected)) := by
  cases hquotable : shown.isQuotable with
  | true =>
    refine comes_refuse_of_quotable typed hquotable fun he => ?_
    rw [h.mpr he] at hquotable
    cases hquotable
  | false =>
    rw [refuse, hquotable, if_neg Bool.false_ne_true]
    exact .escaped (h.mp hquotable)

theorem toNumber?_lands (h : toNumber? v = some w) : Lands (some .number) v w := by
  have hfinite {x : Binary64} (h : (if x.isFinite then some (Value.float x) else none) = some w) :
      Lands (some .number) v w := by
    split at h
    · cases h
      exact .inr ⟨x, rfl, ‹_›⟩
    · cases h
  unfold toNumber? at h
  split at h
  · cases h
    exact .inl ⟨_, rfl⟩
  · exact hfinite h
  · split at h
    · cases h
      exact .inl ⟨_, rfl⟩
    · split at h
      · exact hfinite h
      · cases h
  · cases h

theorem escapes_compound_iff {type : FieldType} (typed : type = .number ∨ type = .date)
    (compound : ∀ s, v ≠ .scalar s) : v.isQuotable = false ↔ Escapes (some type) v := by
  constructor
  · exact .longPart typed compound
  · intro h
    cases h with
    | misread => exact absurd rfl (compound _)
    | longTimestamp => exact absurd rfl (compound _)
    | longPart _ _ h => exact h

theorem not_escapes_scalar_number (s : Scalar) : ¬Escapes (some .number) (.scalar s) := by
  intro h
  cases h with
  | longPart _ compound => exact compound s rfl

theorem value_number_comes (field : String) (v : Value) :
    Comes field (some .number) v (value field (some .number) v) := by
  rw [value]
  cases v with
  | scalar s =>
    have hsound := not_escapes_scalar_number s
    cases hn : toNumber? (.scalar s) with
    | some w => exact .converted (toNumber?_lands hn) hsound
    | none =>
      refine comes_refuse rfl ⟨fun hlong => ?_, fun h => absurd h hsound⟩
      obtain ⟨n, rfl, _⟩ := Scalar.eq_int_of_not_isQuotable hlong
      cases hn
  | list items => exact comes_refuse rfl (escapes_compound_iff (.inl rfl) nofun)
  | map entries => exact comes_refuse rfl (escapes_compound_iff (.inl rfl) nofun)
  | keyed entries => exact comes_refuse rfl (escapes_compound_iff (.inl rfl) nofun)

theorem escapes_int_iff {n : Int} :
    (Value.int n).isQuotable = false ↔ Escapes (some .date) (.int n) := by
  constructor
  · intro hlong
    obtain ⟨_, ⟨⟩, hn⟩ := Scalar.eq_int_of_not_isQuotable hlong
    exact .longTimestamp hn
  · intro h
    cases h with
    | longTimestamp hn =>
      exact Bool.eq_false_iff.mpr fun hq =>
        absurd ((Scalar.isQuotable_int_iff n).mp hq) (Nat.not_lt.mpr hn)
    | longPart _ _ h => exact h

theorem escapes_text_iff {s : String} : Escapes type (.text s) ↔
    type = some .date ∧ isTimestamp s = true ∧ Numeral.int? s = none := by
  constructor
  · intro h
    cases h with
    | misread form unread => exact ⟨rfl, form, unread⟩
    | longPart _ compound => exact absurd rfl (compound _)
  · rintro ⟨rfl, form, unread⟩
    exact .misread form unread

theorem not_escapes_date {s : Scalar} (hint : ∀ n, s ≠ .int n) (htext : ∀ t, s ≠ .text t) :
    ¬Escapes (some .date) (.scalar s) := by
  intro h
  cases h with
  | misread => exact htext _ rfl
  | longTimestamp => exact hint _ rfl
  | longPart _ compound => exact compound s rfl

theorem toMoment_text_comes (field s : String) :
    Comes field (some .date) (.text s) (toMoment field (.text s)) := by
  rw [toMoment]
  dsimp only
  split
  · rename_i form
    split
    · rename_i n hn
      have hsound : ¬Escapes (some .date) (.text s) := by
        rw [escapes_text_iff, hn]
        exact fun h => nomatch h.2.2
      have hquotable : (Value.int n).isQuotable = true :=
        (Scalar.isQuotable_int_iff n).mpr (Numeral.natAbs_lt_of_int? hn)
      cases Moment.ofMilliseconds? n with
      | some t => exact .converted ⟨t, rfl⟩ hsound
      | none => exact comes_refuse_of_quotable rfl hquotable hsound
    · exact .escaped (.misread form ‹_›)
  · rename_i form
    have hsound : ¬Escapes (some .date) (.text s) := fun h => form (escapes_text_iff.mp h).2.1
    cases readMoment s with
    | some t => exact .converted ⟨t, rfl⟩ hsound
    | none => exact comes_refuse_of_quotable rfl rfl hsound

theorem toMoment_comes (field : String) (v : Value) :
    Comes field (some .date) v (toMoment field v) := by
  cases v with
  | scalar s =>
    cases s with
    | int n =>
      rw [toMoment]
      cases hm : Moment.ofMilliseconds? n with
      | some t =>
        refine .converted ⟨t, rfl⟩ fun h => ?_
        cases h with
        | longTimestamp hn =>
          rw [Moment.ofMilliseconds?_of_overflow hn] at hm
          cases hm
        | longPart _ compound => exact compound _ rfl
      | none => exact comes_refuse rfl escapes_int_iff
    | text s => exact toMoment_text_comes field s
    | moment t => exact .converted ⟨t, rfl⟩ (not_escapes_date nofun nofun)
    | day d => exact .converted ⟨_, rfl⟩ (not_escapes_date nofun nofun)
    | float x =>
      have hsound := not_escapes_date (s := .float x) nofun nofun
      rw [toMoment]
      cases Moment.ofBinaryMilliseconds? x with
      | some t => exact .converted ⟨t, rfl⟩ hsound
      | none => exact comes_refuse_of_quotable rfl rfl hsound
    | null => exact comes_refuse_of_quotable rfl rfl (not_escapes_date nofun nofun)
    | bool b => exact comes_refuse_of_quotable rfl rfl (not_escapes_date nofun nofun)
  | list items => exact comes_refuse rfl (escapes_compound_iff (.inr rfl) nofun)
  | map entries => exact comes_refuse rfl (escapes_compound_iff (.inr rfl) nofun)
  | keyed entries => exact comes_refuse rfl (escapes_compound_iff (.inr rfl) nofun)

theorem value_comes (field : String) (type : Option FieldType) (v : Value) :
    Comes field type v (value field type v) := by
  have hsound {type : Option FieldType} (hnumber : type ≠ some .number)
      (hdate : type ≠ some .date) :
      ¬Escapes type v := by
    intro h
    cases h with
    | misread => exact hdate rfl
    | longTimestamp => exact hdate rfl
    | longPart typed =>
      rcases typed with rfl | rfl
      · exact hnumber rfl
      · exact hdate rfl
  cases type with
  | none => exact .converted rfl (hsound nofun nofun)
  | some type =>
    cases type with
    | number => exact value_number_comes field v
    | date => exact toMoment_comes field v
    | boolean => exact .converted ⟨_, rfl⟩ (hsound nofun nofun)
    | string => exact .converted rfl (hsound nofun nofun)
    | array => exact .converted rfl (hsound nofun nofun)
    | relation => exact .converted rfl (hsound nofun nofun)
    | mixed => exact .converted rfl (hsound nofun nofun)

theorem lands_of_value (h : value field type v = .ok w) : Lands type v w := by
  have hcomes := value_comes field type v
  rw [h] at hcomes
  cases hcomes with
  | converted lands => exact lands

theorem value_of_escapes (field : String) (h : Escapes type v) :
    value field type v = .error (.mismatch .notInteger) := by
  have hcomes := value_comes field type v
  generalize value field type v = result at hcomes
  cases hcomes with
  | converted _ hsound => exact absurd h hsound
  | refused _ _ hsound => exact absurd h hsound
  | escaped => rfl

theorem value_of_lands (field : String) (h : Lands type v w) : value field type w = .ok w := by
  cases type with
  | none => rfl
  | some type =>
    cases type with
    | number =>
      rcases h with ⟨n, rfl⟩ | ⟨x, rfl, hx⟩
      · rfl
      · rw [value, toNumber?, if_pos hx]
    | date =>
      obtain ⟨t, rfl⟩ := h
      rfl
    | boolean =>
      obtain ⟨b, rfl⟩ := h
      rfl
    | _ => rfl

theorem values_list_ok_iff {items : List Value} : values field type (.list items) = .ok w ↔
    ∃ converted, w = .list converted ∧
      List.Forall₂ (fun v c => value field type v = .ok c) items converted := by
  rw [values, Outcome.bind_eq_ok_iff]
  constructor
  · rintro ⟨converted, hm, ⟨⟩⟩
    exact ⟨converted, rfl, Outcome.mapM_eq_ok_iff.mp hm⟩
  · rintro ⟨converted, rfl, hm⟩
    exact ⟨converted, Outcome.mapM_eq_ok_iff.mpr hm, rfl⟩

theorem values_list_error_iff {items : List Value} {f : Fault} :
    values field type (.list items) = .error f ↔
      Outcome.FirstBad (fun v => ∃ c, value field type v = .ok c)
        (fun v => value field type v = .error f) items := by
  rw [← Outcome.mapM_eq_error_iff, ← Outcome.fault?_eq_some_iff, ← Outcome.fault?_eq_some_iff,
    values, Outcome.fault?_bind_pure]

theorem values_of_not_list (h : ∀ items, v ≠ .list items) :
    values field type v = value field type v := by
  cases v with
  | list items => exact absurd rfl (h items)
  | _ => rfl

theorem Lands.scalar_or_same (h : Lands type v w) : (∃ t, w = .scalar t) ∨ w = v := by
  unfold Lands at h
  split at h
  · rcases h with ⟨n, rfl⟩ | ⟨x, rfl, _⟩
    · exact .inl ⟨_, rfl⟩
    · exact .inl ⟨_, rfl⟩
  · obtain ⟨t, rfl⟩ := h
    exact .inl ⟨_, rfl⟩
  · obtain ⟨b, rfl⟩ := h
    exact .inl ⟨_, rfl⟩
  · exact .inr h

theorem Lands.ne_list (h : Lands type v w) (hv : ∀ items, v ≠ .list items) :
    ∀ items, w ≠ .list items := by
  obtain ⟨t, rfl⟩ | rfl := h.scalar_or_same
  · nofun
  · exact hv

theorem values_again (h : values field type v = .ok w) : values field type w = .ok w := by
  by_cases hlist : ∃ items, v = .list items
  · obtain ⟨items, rfl⟩ := hlist
    obtain ⟨converted, rfl, hm⟩ := values_list_ok_iff.mp h
    refine values_list_ok_iff.mpr ⟨converted, rfl, ?_⟩
    rw [List.forall₂_same]
    intro c hc
    obtain ⟨item, _, hitem⟩ := Outcome.exists_of_mem_right hm hc
    exact value_of_lands field (lands_of_value hitem)
  · have hv : ∀ items, v ≠ .list items := fun items he => hlist ⟨items, he⟩
    rw [values_of_not_list hv] at h
    have hlands := lands_of_value h
    rw [values_of_not_list (hlands.ne_list hv)]
    exact value_of_lands field hlands

end

/-- A conversion is refused with the field and its type, if it fails, but for the values that
escape. -/
theorem value_refused_iff (field : String) (type : Option FieldType) (v : Value) :
    ((∃ w, value field type v = .ok w) ∨
      (∃ shown expected, type = some expected ∧
        value field type v = .error (.invalidValue field shown expected)) ↔ ¬Escapes type v) ∧
    (value field type v = .error (.mismatch .notInteger) ↔ Escapes type v) := by
  have hcomes := value_comes field type v
  generalize value field type v = result at hcomes
  cases hcomes with
  | converted lands h => simp [h]
  | refused shown typed h =>
    subst typed
    simp [h]
  | escaped h => simp [h]

theorem value_refused_iff_yesterday :
    ¬Escapes (some .date) (.text "yesterday") ∧
      ((∃ w, value "createdAt" (some .date) (.text "yesterday") = .ok w) ∨
        ∃ shown expected, some FieldType.date = some expected ∧
          value "createdAt" (some .date) (.text "yesterday") =
            .error (.invalidValue "createdAt" shown expected)) := by
  have hsound : ¬Escapes (some .date) (.text "yesterday") := by
    rw [escapes_text_iff]
    decide +kernel
  exact ⟨hsound, (value_refused_iff "createdAt" (some .date) (.text "yesterday")).1.mpr hsound⟩

/-- The separator before the digit is a blank in a timestamp, and none in an integer. -/
theorem value_misreads_separator :
    value "createdAt" (some .date) (.text "\x1c5") = .error (.mismatch .notInteger) ∧
      ¬((∃ w, value "createdAt" (some .date) (.text "\x1c5") = .ok w) ∨
        ∃ shown expected, some FieldType.date = some expected ∧
          value "createdAt" (some .date) (.text "\x1c5") =
            .error (.invalidValue "createdAt" shown expected)) := by
  have hescapes : Escapes (some .date) (.text "\x1c5") :=
    .misread (by decide +kernel) (by decide +kernel)
  rw [value_of_escapes "createdAt" hescapes]
  refine ⟨rfl, ?_⟩
  rintro (⟨w, ⟨⟩⟩ | ⟨shown, expected, _, ⟨⟩⟩)

/-- Converting gives a value of the type, and nothing changes any more when it is repeated. A list
is converted item by item, and fails as the first of its items that fails. -/
theorem values_settle (field : String) (type : Option FieldType) :
    (∀ v w, value field type v = .ok w → Lands type v w ∧ value field type w = .ok w) ∧
    (∀ items w, values field type (.list items) = .ok w ↔
      ∃ converted, w = .list converted ∧
        List.Forall₂ (fun v c => value field type v = .ok c) items converted) ∧
    (∀ items f, values field type (.list items) = .error f ↔
      ∃ before v after, items = before ++ v :: after ∧
        (∀ x ∈ before, ∃ c, value field type x = .ok c) ∧ value field type v = .error f) ∧
    (∀ v w, values field type v = .ok w → values field type w = .ok w) := by
  refine ⟨?_, fun _ _ => values_list_ok_iff, fun _ _ => values_list_error_iff,
    fun _ _ => values_again⟩
  intro v w h
  have hlands := lands_of_value h
  exact ⟨hlands, value_of_lands field hlands⟩

theorem values_settle_prices :
    let price := some FieldType.number
    let prices : Value := .list [.int 7, .float (.ofRatio 3 2)]
    (Lands price (.text " 7 ") (.int 7) ∧ value "price" price (.int 7) = .ok (.int 7)) ∧
      values "price" price (.list [.text " 7 ", .text "1.5"]) = .ok prices ∧
      values "price" price prices = .ok prices ∧
      values "price" price (.list [.text "7", .bool true, .null]) =
        .error (.invalidValue "price" (.bool true) .number) := by
  intro price prices
  obtain ⟨honce, hlist, herror, hagain⟩ := values_settle "price" price
  have hint {s : String} {n : Int} (h : Numeral.int? s = some n) :
      value "price" price (.text s) = .ok (.int n) := by
    simp only [value, price, toNumber?, h]
  have hseven : value "price" price (.text " 7 ") = .ok (.int 7) := hint (by decide +kernel)
  have hdecimal : value "price" price (.text "1.5") = .ok (.float (.ofRatio 3 2)) := by
    have hnone : Numeral.int? "1.5" = none := by decide +kernel
    have hfloat : Numeral.float? "1.5" = some (.ofRatio 3 2) := by decide +kernel
    have hfinite : (Binary64.ofRatio 3 2).isFinite = true := by decide +kernel
    simp only [value, price, toNumber?, hnone, hfloat, hfinite, if_true]
  have hprices : values "price" price (.list [.text " 7 ", .text "1.5"]) = .ok prices :=
    (hlist _ _).mpr ⟨_, rfl, .cons hseven (.cons hdecimal .nil)⟩
  refine ⟨honce _ _ hseven, hprices, hagain _ _ hprices, ?_⟩
  refine (herror _ _).mpr ⟨[.text "7"], .bool true, [.null], rfl, ?_, rfl⟩
  exact List.forall_mem_singleton.mpr ⟨.int 7, hint (by decide +kernel)⟩

end QueryPipeline.Coerce
