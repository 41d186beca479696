import QueryPipeline.Entries

namespace QueryPipeline.Entries

variable {κ α : Type} [BEq κ]

def Distinct (entries : List (κ × α)) : Prop :=
  entries.Pairwise fun e f => (e.1 == f.1) = false

def valuesUnder (key : κ) (visits : List (κ × α)) : List α :=
  (visits.filter fun e => key == e.1).map Prod.snd

def besides (key : κ) (visits : List (κ × α)) : List (κ × α) :=
  visits.filter fun e => !(key == e.1)

theorem length_besides_le (key : κ) (visits : List (κ × α)) :
    (besides key visits).length ≤ visits.length :=
  List.length_filter_le _ visits

/-- Every key at the place of its first visit, with the values of its visits folded from the
left. -/
def foldKeys (f : α → α → α) : List (κ × α) → List (κ × α)
  | [] => []
  | (k, a) :: rest =>
    (k, (valuesUnder k rest).foldl f a) :: foldKeys f (besides k rest)
termination_by visits => visits.length
decreasing_by
  have h := length_besides_le k rest
  simp only [List.length_cons]
  omega

def putWith (f : α → α → α) : List (κ × α) → κ → α → List (κ × α)
  | [], key, a => [(key, a)]
  | (k, b) :: rest, key, a =>
    if k == key then (k, f b a) :: rest else (k, b) :: putWith f rest key a

theorem valuesUnder_cons (k : κ) (e : κ × α) (rest : List (κ × α)) :
    valuesUnder k (e :: rest) =
      if k == e.1 then e.2 :: valuesUnder k rest else valuesUnder k rest := by
  simp only [valuesUnder, List.filter_cons]
  split <;> rfl

theorem besides_cons (k : κ) (e : κ × α) (rest : List (κ × α)) :
    besides k (e :: rest) = if k == e.1 then besides k rest else e :: besides k rest := by
  simp only [besides, List.filter_cons]
  cases k == e.1 <;> rfl

theorem mem_besides {k : κ} {e : κ × α} {visits : List (κ × α)} :
    e ∈ besides k visits ↔ e ∈ visits ∧ (k == e.1) = false := by
  simp only [besides, List.mem_filter, Bool.not_eq_true']

theorem mem_valuesUnder {k : κ} {a : α} {visits : List (κ × α)} :
    a ∈ valuesUnder k visits ↔ ∃ e ∈ visits, (k == e.1) = true ∧ e.2 = a := by
  simp only [valuesUnder, List.mem_map, List.mem_filter, and_assoc]

theorem foldKeys_nil (f : α → α → α) : foldKeys f ([] : List (κ × α)) = [] := by
  rw [foldKeys]

theorem foldKeys_cons (f : α → α → α) (k : κ) (a : α) (rest : List (κ × α)) :
    foldKeys f ((k, a) :: rest) =
      (k, (valuesUnder k rest).foldl f a) :: foldKeys f (besides k rest) := by
  rw [foldKeys]

theorem put_eq_putWith (entries : List (κ × α)) (key : κ) (a : α) :
    put entries key a = putWith (fun _ later => later) entries key a := by
  induction entries with
  | nil => rfl
  | cons e rest ih => simp only [put, putWith, ih]

theorem foldl_putWith_cons (f : α → α → α) (visits : List (κ × α)) (k : κ) (a : α)
    (entries : List (κ × α)) :
    visits.foldl (fun es e => putWith f es e.1 e.2) ((k, a) :: entries) =
      (k, (valuesUnder k visits).foldl f a) ::
        (besides k visits).foldl (fun es e => putWith f es e.1 e.2) entries := by
  induction visits generalizing a entries with
  | nil => rfl
  | cons e rest ih =>
    rw [List.foldl_cons, putWith, valuesUnder_cons, besides_cons]
    split
    · rw [ih, List.foldl_cons]
    · rw [ih, List.foldl_cons]

theorem foldl_putWith (f : α → α → α) (visits : List (κ × α)) :
    visits.foldl (fun es e => putWith f es e.1 e.2) [] = foldKeys f visits := by
  induction visits using foldKeys.induct with
  | case1 => rw [foldKeys_nil, List.foldl_nil]
  | case2 k a rest ih =>
    rw [List.foldl_cons, putWith, foldl_putWith_cons, foldKeys_cons, ih]

theorem update_nil (visits : List (κ × α)) :
    update [] visits = foldKeys (fun _ later => later) visits := by
  simp only [update, put_eq_putWith, foldl_putWith]

theorem foldl_update (all : List (List (κ × α))) (entries : List (κ × α)) :
    all.foldl update entries = update entries all.flatten := by
  simp only [update, List.foldl_flatten]
  rfl

theorem key_of_mem_foldKeys {f : α → α → α} {visits : List (κ × α)} {e : κ × α}
    (h : e ∈ foldKeys f visits) : ∃ e' ∈ visits, e'.1 = e.1 := by
  induction visits using foldKeys.induct with
  | case1 => rw [foldKeys_nil] at h; cases h
  | case2 k a rest ih =>
    rw [foldKeys_cons, List.mem_cons] at h
    rcases h with he | h
    · exact ⟨(k, a), List.mem_cons_self, by rw [he]⟩
    · obtain ⟨e', he', hk⟩ := ih h
      exact ⟨e', List.mem_cons_of_mem _ (mem_besides.mp he').1, hk⟩

theorem distinct_foldKeys (f : α → α → α) (visits : List (κ × α)) :
    Distinct (foldKeys f visits) := by
  induction visits using foldKeys.induct with
  | case1 => rw [foldKeys_nil]; exact .nil
  | case2 k a rest ih =>
    rw [foldKeys_cons]
    refine .cons ?_ ih
    intro e he
    obtain ⟨e', he', hk⟩ := key_of_mem_foldKeys he
    rw [← hk]
    exact (mem_besides.mp he').2

theorem has_foldKeys [PartialEquivBEq κ] {f : α → α → α} {visits : List (κ × α)} {key : κ}
    {e : κ × α} (he : e ∈ visits) (hkey : (e.1 == key) = true) :
    has (foldKeys f visits) key = true := by
  induction visits using foldKeys.induct with
  | case1 => cases he
  | case2 k a rest ih =>
    rw [foldKeys_cons, has, get?]
    split
    · rfl
    · rename_i hother
      rcases List.mem_cons.mp he with rfl | he
      · exact absurd hkey hother
      · refine ih (mem_besides.mpr ⟨he, Bool.eq_false_iff.mpr fun hk => hother ?_⟩)
        exact BEq.trans hk hkey

theorem valuesUnder_eq_nil {key : κ} {visits : List (κ × α)}
    (h : ∀ e ∈ visits, (key == e.1) = false) : valuesUnder key visits = [] := by
  simp only [valuesUnder, List.map_eq_nil_iff, List.filter_eq_nil_iff]
  intro e he
  simp only [h e he, Bool.false_eq_true, not_false_eq_true]

theorem besides_eq_self {key : κ} {visits : List (κ × α)}
    (h : ∀ e ∈ visits, (key == e.1) = false) : besides key visits = visits := by
  rw [besides, List.filter_eq_self]
  intro e he
  rw [h e he, Bool.not_false]

theorem Distinct.foldKeys_eq {entries : List (κ × α)} (h : Distinct entries)
    (f : α → α → α) : foldKeys f entries = entries := by
  induction entries with
  | nil => exact foldKeys_nil f
  | cons e rest ih =>
    obtain ⟨hk, hr⟩ := List.pairwise_cons.mp h
    rw [foldKeys_cons, valuesUnder_eq_nil hk, besides_eq_self hk, ih hr]
    rfl

theorem mem_putWith {f : α → α → α} {entries : List (κ × α)} {key : κ} {a : α} {e : κ × α}
    (h : e ∈ putWith f entries key a) :
    e ∈ entries ∨ e = (key, a) ∨ ∃ e' ∈ entries, (e'.1 == key) = true ∧ e = (e'.1, f e'.2 a) := by
  induction entries with
  | nil => exact .inr (.inl (List.mem_singleton.mp h))
  | cons e' rest ih =>
    rw [putWith] at h
    split at h
    · rename_i hk
      rcases List.mem_cons.mp h with he | he
      · exact .inr (.inr ⟨e', List.mem_cons_self, hk, he⟩)
      · exact .inl (List.mem_cons_of_mem _ he)
    · rcases List.mem_cons.mp h with he | he
      · exact .inl (List.mem_cons.mpr (.inl he))
      · rcases ih he with he | he | ⟨x, hx, he⟩
        · exact .inl (List.mem_cons_of_mem _ he)
        · exact .inr (.inl he)
        · exact .inr (.inr ⟨x, List.mem_cons_of_mem _ hx, he⟩)

theorem key_of_mem_putWith {f : α → α → α} {entries : List (κ × α)} {key : κ} {a : α}
    {e : κ × α} (h : e ∈ putWith f entries key a) :
    (∃ e' ∈ entries, e'.1 = e.1) ∨ e.1 = key := by
  rcases mem_putWith h with he | he | ⟨e', he', _, he⟩
  · exact .inl ⟨e, he, rfl⟩
  · exact .inr (by rw [he])
  · exact .inl ⟨e', he', by rw [he]⟩

theorem Distinct.putWith {entries : List (κ × α)} (h : Distinct entries) (f : α → α → α)
    (key : κ) (a : α) : Distinct (putWith f entries key a) := by
  induction entries with
  | nil => exact List.pairwise_singleton _ _
  | cons e rest ih =>
    obtain ⟨hk, hr⟩ := List.pairwise_cons.mp h
    rw [Entries.putWith]
    split
    · exact .cons hk hr
    · rename_i hne
      refine .cons ?_ (ih hr)
      intro x hx
      rcases key_of_mem_putWith hx with ⟨y, hy, hyx⟩ | hx
      · rw [← hyx]
        exact hk y hy
      · rw [hx]
        exact Bool.eq_false_iff.mpr hne

theorem Distinct.put {entries : List (κ × α)} (h : Distinct entries) (key : κ) (a : α) :
    Distinct (put entries key a) := by
  rw [put_eq_putWith]
  exact h.putWith _ key a

theorem Distinct.erase {entries : List (κ × α)} (h : Distinct entries) (key : κ) :
    Distinct (erase entries key) :=
  List.Pairwise.filter _ h

theorem get?_eq_none_iff {entries : List (κ × α)} {key : κ} :
    get? entries key = none ↔ ∀ e ∈ entries, (e.1 == key) = false := by
  induction entries with
  | nil => simp only [get?_nil, List.not_mem_nil, false_imp_iff, implies_true]
  | cons e rest ih =>
    rw [get?, List.forall_mem_cons]
    cases h : e.1 == key with
    | true => simp
    | false => simp [ih]

theorem put_of_get?_eq_none {entries : List (κ × α)} {key : κ} (h : get? entries key = none)
    (a : α) : put entries key a = entries ++ [(key, a)] := by
  induction entries with
  | nil => rfl
  | cons e rest ih =>
    have hk := get?_eq_none_iff.mp h
    have hr : get? rest key = none :=
      get?_eq_none_iff.mpr fun x hx => hk x (List.mem_cons_of_mem _ hx)
    rw [put, hk e List.mem_cons_self, if_neg Bool.false_ne_true, ih hr, List.cons_append]

theorem Distinct.get?_eq_none {entries rest : List (κ × α)} {e : κ × α}
    (h : Distinct (entries ++ e :: rest)) : get? entries e.1 = none := by
  rw [get?_eq_none_iff]
  intro x hx
  exact (List.pairwise_append.mp h).2.2 x hx e List.mem_cons_self

theorem update_eq_foldKeys {entries : List (κ × α)} (h : Distinct entries)
    (more : List (κ × α)) :
    update entries more = foldKeys (fun _ later => later) (entries ++ more) := by
  have hfirst : update [] entries = entries := by rw [update_nil, h.foldKeys_eq]
  calc update entries more = update (update [] entries) more := by rw [hfirst]
    _ = update [] (entries ++ more) := List.foldl_append.symm
    _ = foldKeys (fun _ later => later) (entries ++ more) := update_nil _

/-- A key that is there may be visited before the entries or behind them. That comes to the same
only when the entry under it is the first one, and the visit leaves it as it is. -/
theorem Distinct.foldKeys_cons_eq_concat_iff {entries : List (κ × α)} (h : Distinct entries)
    {key : κ} (hkey : (key == key) = true) (hhas : has entries key = true) (a : α) :
    foldKeys (fun _ later => later) ((key, a) :: entries) =
        foldKeys (fun _ later => later) (entries ++ [(key, a)]) ↔
      ∃ rest, entries = (key, a) :: rest := by
  cases entries with
  | nil => cases hhas
  | cons e rest =>
    obtain ⟨hk, hr⟩ := List.pairwise_cons.mp h
    have hconcat : foldKeys (fun _ later => later) (e :: rest ++ [(key, a)]) =
        Entries.put (e :: rest) key a := (update_eq_foldKeys h [(key, a)]).symm
    rw [hconcat, foldKeys_cons, Entries.put]
    constructor
    · intro heq
      split at heq
      · obtain ⟨hhead, _⟩ := List.cons.inj heq
        obtain ⟨rfl, hlast⟩ := Prod.mk.inj hhead
        rw [valuesUnder_cons, if_pos hkey, valuesUnder_eq_nil hk] at hlast
        exact ⟨rest, by rw [← hlast]; rfl⟩
      · rename_i hne
        obtain ⟨hhead, _⟩ := List.cons.inj heq
        rw [← congrArg Prod.fst hhead] at hne
        exact absurd hkey hne
    · intro hfirst
      obtain ⟨later, hfirst⟩ := hfirst
      obtain ⟨rfl, rfl⟩ := List.cons.inj hfirst
      rw [if_pos hkey, valuesUnder_cons, if_pos hkey, valuesUnder_eq_nil hk, besides_cons,
        if_pos hkey, besides_eq_self hk, Distinct.foldKeys_eq hr]
      rfl

theorem update_of_distinct {entries more : List (κ × α)} (h : Distinct (entries ++ more)) :
    update entries more = entries ++ more := by
  have hentries : Distinct entries := (List.pairwise_append.mp h).1
  rw [update_eq_foldKeys hentries, h.foldKeys_eq]

theorem get?_put_of_beq [PartialEquivBEq κ] (entries : List (κ × α)) {key other : κ} (a : α)
    (h : (key == other) = true) : get? (put entries key a) other = some a := by
  induction entries with
  | nil => rw [put, get?, if_pos h]
  | cons e rest ih =>
    rw [put]
    split
    · rw [get?, if_pos (BEq.trans ‹_› h)]
    · rw [get?, if_neg (fun he => ‹¬_› (BEq.trans he (BEq.symm h))), ih]

theorem get?_update_of_forall [PartialEquivBEq κ] {entries more : List (κ × α)} {key : κ} {a : α}
    (ha : ∀ e ∈ more, e.2 = a)
    (hk : get? entries key = some a ∨ ∃ e ∈ more, (e.1 == key) = true) :
    get? (update entries more) key = some a := by
  induction more generalizing entries with
  | nil =>
    rcases hk with hk | ⟨e, he, _⟩
    · exact hk
    · cases he
  | cons e rest ih =>
    obtain ⟨he, hr⟩ := List.forall_mem_cons.mp ha
    rw [update, List.foldl_cons]
    apply ih hr
    cases hek : e.1 == key with
    | true =>
      rw [he]
      exact .inl (get?_put_of_beq _ _ hek)
    | false =>
      rw [get?_put_of_ne _ _ hek]
      rcases hk with hk | ⟨x, hx, hxk⟩
      · exact .inl hk
      · rcases List.mem_cons.mp hx with rfl | hx
        · rw [hek] at hxk
          cases hxk
        · exact .inr ⟨x, hx, hxk⟩

theorem mem_put {entries : List (κ × α)} {key : κ} {a : α} {e : κ × α}
    (h : e ∈ put entries key a) : e ∈ entries ∨ e.2 = a := by
  induction entries with
  | nil =>
    rw [put, List.mem_singleton] at h
    exact .inr (by rw [h])
  | cons x rest ih =>
    rw [put] at h
    split at h
    · rcases List.mem_cons.mp h with rfl | h
      · exact .inr rfl
      · exact .inl (List.mem_cons_of_mem _ h)
    · rcases List.mem_cons.mp h with rfl | h
      · exact .inl List.mem_cons_self
      · exact (ih h).imp_left (List.mem_cons_of_mem _)

theorem mem_update {entries more : List (κ × α)} {e : κ × α} (h : e ∈ update entries more) :
    e ∈ entries ∨ ∃ x ∈ more, e.2 = x.2 := by
  induction more generalizing entries with
  | nil => exact .inl h
  | cons x rest ih =>
    rcases ih h with h | ⟨y, hy, hey⟩
    · exact (mem_put h).imp_right fun he => ⟨x, List.mem_cons_self, he⟩
    · exact .inr ⟨y, List.mem_cons_of_mem _ hy, hey⟩

theorem mem_put_of_mem {entries : List (κ × α)} {key other : κ} {a : α}
    (h : (other, a) ∈ entries) : (other, a) ∈ put entries key a := by
  induction entries with
  | nil => cases h
  | cons e rest ih =>
    rw [put]
    rcases List.mem_cons.mp h with rfl | h
    · split
      · exact List.mem_cons_self
      · exact List.mem_cons_self
    · split
      · exact List.mem_cons_of_mem _ h
      · exact List.mem_cons_of_mem _ (ih h)

theorem exists_mem_put (entries : List (κ × α)) (key : κ) (a : α) :
    ∃ other, (other == key ∨ other = key) ∧ (other, a) ∈ put entries key a := by
  induction entries with
  | nil => exact ⟨key, .inr rfl, List.mem_singleton.mpr rfl⟩
  | cons e rest ih =>
    rw [put]
    split
    · exact ⟨e.1, .inl ‹_›, List.mem_cons_self⟩
    · obtain ⟨other, hkey, hmem⟩ := ih
      exact ⟨other, hkey, List.mem_cons_of_mem _ hmem⟩

theorem mem_update_of_mem {entries more : List (κ × α)} {a : α} (ha : ∀ e ∈ more, e.2 = a)
    {key : κ} (h : (key, a) ∈ entries) : (key, a) ∈ update entries more := by
  induction more generalizing entries with
  | nil => exact h
  | cons e rest ih =>
    obtain ⟨he, hrest⟩ := List.forall_mem_cons.mp ha
    subst he
    exact ih hrest (mem_put_of_mem h)

theorem exists_mem_update {entries more : List (κ × α)} {a : α} (ha : ∀ e ∈ more, e.2 = a)
    {key : κ} (h : (key, a) ∈ more) :
    ∃ other, (other == key ∨ other = key) ∧ (other, a) ∈ update entries more := by
  induction more generalizing entries with
  | nil => cases h
  | cons e rest ih =>
    obtain ⟨he, hrest⟩ := List.forall_mem_cons.mp ha
    rcases List.mem_cons.mp h with rfl | h
    · obtain ⟨other, hkey, hmem⟩ := exists_mem_put entries key a
      exact ⟨other, hkey, mem_update_of_mem hrest hmem⟩
    · exact ih hrest h

theorem get?_erase_self (entries : List (κ × α)) (key : κ) :
    get? (erase entries key) key = none := by
  rw [get?_eq_none_iff]
  intro e he
  have hk := (List.mem_filter.mp he).2
  rwa [Bool.not_eq_eq_eq_not, Bool.not_true] at hk

theorem get?_filter {p : κ × α → Bool} {key : κ} (h : ∀ e, (e.1 == key) = true → p e = true)
    (entries : List (κ × α)) : get? (entries.filter p) key = get? entries key := by
  induction entries with
  | nil => rfl
  | cons e rest ih =>
    rw [List.filter_cons, get?]
    split
    · rw [get?, ih]
    · rename_i hp
      have hne : (e.1 == key) = false := Bool.eq_false_iff.mpr fun he => hp (h e he)
      rw [ih, hne, if_neg Bool.false_ne_true]

theorem get?_erase_of_ne [PartialEquivBEq κ] (entries : List (κ × α)) {key other : κ}
    (h : (key == other) = false) : get? (erase entries key) other = get? entries other := by
  apply get?_filter
  intro e he
  rw [Bool.not_eq_true', ← Bool.not_eq_true]
  intro hk
  rw [BEq.congr_left hk, h] at he
  cases he

theorem Distinct.get?_eq_some [PartialEquivBEq κ] {entries : List (κ × α)} (h : Distinct entries)
    {e : κ × α} (he : e ∈ entries) {key : κ} (hk : (e.1 == key) = true) :
    get? entries key = some e.2 := by
  induction entries with
  | nil => cases he
  | cons x rest ih =>
    obtain ⟨hx, hr⟩ := List.pairwise_cons.mp h
    rw [get?]
    rcases List.mem_cons.mp he with rfl | he
    · rw [if_pos hk]
    · have hne : (x.1 == key) = false := (BEq.congr_right hk).symm.trans (hx e he)
      rw [hne, if_neg Bool.false_ne_true, ih hr he]

theorem mem_of_get?_eq_some {entries : List (κ × α)} {key : κ} {a : α}
    (h : get? entries key = some a) : ∃ e ∈ entries, (e.1 == key) = true ∧ e.2 = a := by
  induction entries with
  | nil => cases h
  | cons x rest ih =>
    rw [get?] at h
    split at h
    · exact ⟨x, List.mem_cons_self, ‹_›, Option.some.inj h⟩
    · obtain ⟨e, he, hk, ha⟩ := ih h
      exact ⟨e, List.mem_cons_of_mem _ he, hk, ha⟩

theorem Distinct.get?_perm [PartialEquivBEq κ] {entries entries' : List (κ × α)}
    (h : Distinct entries) (hp : entries.Perm entries') (key : κ) :
    get? entries key = get? entries' key := by
  have h' : Distinct entries' :=
    (hp.pairwise_iff fun hne => BEq.symm_false hne).mp h
  cases hg : get? entries' key with
  | none =>
    rw [get?_eq_none_iff] at hg ⊢
    exact fun e he => hg e (hp.mem_iff.mp he)
  | some a =>
    obtain ⟨e, he, hk, rfl⟩ := mem_of_get?_eq_some hg
    exact h.get?_eq_some (hp.mem_iff.mpr he) hk

theorem get?_append (entries more : List (κ × α)) (key : κ) :
    get? (entries ++ more) key = (get? entries key).or (get? more key) := by
  induction entries with
  | nil => rfl
  | cons e rest ih =>
    rw [List.cons_append, get?, get?, ih]
    split <;> rfl

theorem update_cons (entries : List (κ × α)) (e : κ × α) (rest : List (κ × α)) :
    update entries (e :: rest) = update (put entries e.1 e.2) rest := rfl

theorem get?_put [PartialEquivBEq κ] (entries : List (κ × α)) (key other : κ) (a : α) :
    get? (put entries key a) other = (get? [(key, a)] other).or (get? entries other) := by
  rw [get?]
  cases h : key == other with
  | true => rw [get?_put_of_beq _ _ h, if_pos rfl, Option.some_or]
  | false => rw [get?_put_of_ne _ _ h, if_neg Bool.false_ne_true, get?_nil, Option.none_or]

theorem get?_update [PartialEquivBEq κ] (entries more : List (κ × α)) (key : κ) :
    get? (update entries more) key = (get? (update [] more) key).or (get? entries key) := by
  induction more generalizing entries with
  | nil => rfl
  | cons e rest ih =>
    rw [update_cons, update_cons, ih, ih (put [] e.1 e.2), get?_put entries, Option.or_assoc]
    rfl

theorem putWith_of_get?_eq_some {entries : List (κ × α)} {key : κ} {b : α}
    (h : get? entries key = some b) (f : α → α → α) (a : α) :
    putWith f entries key a = put entries key (f b a) := by
  induction entries with
  | nil => cases h
  | cons e rest ih =>
    rw [get?] at h
    rw [putWith, put]
    split
    · rw [if_pos ‹_›] at h
      rw [Option.some.inj h]
    · rw [if_neg ‹_›] at h
      rw [ih h]

theorem putWith_of_get?_eq_none {entries : List (κ × α)} {key : κ}
    (h : get? entries key = none) (f : α → α → α) (a : α) :
    putWith f entries key a = put entries key a := by
  induction entries with
  | nil => rfl
  | cons e rest ih =>
    rw [get?] at h
    rw [putWith, put]
    split
    · rw [if_pos ‹_›] at h
      cases h
    · rw [if_neg ‹_›] at h
      rw [ih h]

theorem mem_keys_iff {entries : Entries α} {key : String} :
    key ∈ keys entries ↔ (get? entries key).isSome = true := by
  induction entries with
  | nil => simp [keys]
  | cons e rest ih =>
    rw [keys, List.map_cons, List.mem_cons, get?]
    by_cases h : e.1 = key
    · simp [h]
    · rw [if_neg (by simpa using h), ← ih, keys]
      simp [Ne.symm h]

theorem get?_eq_none_of_notMem {entries : Entries α} {key : String} (h : key ∉ keys entries) :
    get? entries key = none := by
  rwa [mem_keys_iff, Option.not_isSome_iff_eq_none] at h

theorem put_concat {entries : List (κ × α)} {key : κ} [ReflBEq κ] (h : get? entries key = none)
    (a b : α) : put (entries ++ [(key, a)]) key b = entries ++ [(key, b)] := by
  induction entries with
  | nil => simp [put]
  | cons e rest ih =>
    have hk := get?_eq_none_iff.mp h
    have hr : get? rest key = none :=
      get?_eq_none_iff.mpr fun x hx => hk x (List.mem_cons_of_mem _ hx)
    rw [List.cons_append, put, hk e List.mem_cons_self, if_neg Bool.false_ne_true, ih hr,
      List.cons_append]

theorem Distinct.update {entries : List (κ × α)} (h : Distinct entries) (more : List (κ × α)) :
    Distinct (update entries more) := by
  rw [update_eq_foldKeys h]
  exact distinct_foldKeys _ _

section Filter

variable {p : κ → Bool} {key : κ}

theorem filter_putWith_of_false (hp : ∀ k, (k == key) = true → p k = p key) (h : p key = false)
    (f : α → α → α) (entries : List (κ × α)) (a : α) :
    (putWith f entries key a).filter (fun e => p e.1) = entries.filter fun e => p e.1 := by
  induction entries with
  | nil => rw [putWith, List.filter_cons, h, if_neg Bool.false_ne_true]
  | cons e rest ih =>
    rw [putWith]
    split
    · have he : p e.1 = false := (hp e.1 ‹_›).trans h
      simp only [List.filter_cons, he, Bool.false_eq_true, ↓reduceIte]
    · rw [List.filter_cons, List.filter_cons, ih]

theorem filter_putWith_of_true (hp : ∀ k, (k == key) = true → p k = p key) (h : p key = true)
    (f : α → α → α) (entries : List (κ × α)) (a : α) :
    (putWith f entries key a).filter (fun e => p e.1) =
      putWith f (entries.filter fun e => p e.1) key a := by
  induction entries with
  | nil => rw [putWith, List.filter_cons, h, if_pos rfl]; rfl
  | cons e rest ih =>
    rw [putWith]
    split
    · have he : p e.1 = true := (hp e.1 ‹_›).trans h
      simp only [List.filter_cons, he, ↓reduceIte]
      rw [putWith, if_pos ‹_›]
    · rw [List.filter_cons, List.filter_cons, ih]
      split
      · rw [putWith, if_neg ‹_›]
      · rfl

theorem filter_update [LawfulBEq κ] (p : κ → Bool) (entries more : List (κ × α)) :
    (update entries more).filter (fun e => p e.1) =
      update (entries.filter fun e => p e.1) (more.filter fun e => p e.1) := by
  induction more generalizing entries with
  | nil => rfl
  | cons e rest ih =>
    have hkey (k : κ) (hk : (k == e.1) = true) : p k = p e.1 := by rw [eq_of_beq hk]
    rw [update_cons, ih, put_eq_putWith, List.filter_cons]
    cases h : p e.1 with
    | true => rw [filter_putWith_of_true hkey h, if_pos rfl, update_cons, put_eq_putWith]
    | false => rw [filter_putWith_of_false hkey h, if_neg Bool.false_ne_true]

end Filter

end QueryPipeline.Entries
