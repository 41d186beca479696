import Mathlib.Data.List.Nodup
import Mathlib.Data.List.Pairwise
import QueryPipeline.Proofs.Request.Application

namespace QueryPipeline.Search

/-- A document, as far as a search can tell: whether the text at a path matches a pattern, under
options. -/
abbrev Document := String → Value → Value → Bool

def condition? (document : Document) : Value → Option Bool
  | .map [("$regexMatch", .map
      [("input", .text reference), ("regex", regex), ("options", options)])] =>
    match reference.toList with
    | '$' :: path => some (document (String.ofList path) regex options)
    | _ => none
  | _ => none

def number? (document : Document) : Value → Option Int
  | .map [("$cond", .map [("if", condition), ("then", .int first), ("else", .int second)])] =>
    (condition? document condition).map fun holds => if holds then first else second
  | _ => none

def score? (document : Document) : Value → Option Int
  | .map [("$sum", .list terms)] =>
    (terms.mapM (number? document)).map fun numbers => numbers.foldr (· + ·) 0
  | _ => none

def found (s : Search) (document : Document) (path : String) : Bool :=
  document path s.pattern options

/-- The weight of the paths that are found: the first of `n` weighs `n`, the last one weighs 1. -/
def weight (found : String → Bool) : List String → Nat
  | [] => 0
  | path :: rest => (if found path then rest.length + 1 else 0) + weight found rest

theorem number?_term (s : Search) (document : Document) (path : String) (n : Nat) :
    number? document (s.term path n) =
      some (if s.found document path then -(n : Int) else 0) := by
  have hcondition : condition? document (.map [("$regexMatch", .map
      [("input", .text ("$" ++ path)), ("regex", s.pattern), ("options", options)])]) =
      some (s.found document path) := by
    have hpath : ("$" ++ path).toList = '$' :: path.toList := by simp
    simp only [condition?, hpath, String.ofList_toList]
    rfl
  rw [term]
  simp only [number?, hcondition, Option.map_some]

theorem score?_terms (s : Search) (document : Document) (paths : List String) :
    score? document (.map [("$sum", .list (s.terms paths))]) =
      some (-(weight (s.found document) paths : Int)) := by
  rw [score?]
  induction paths with
  | nil => rfl
  | cons path rest ih =>
    obtain ⟨numbers, hnumbers, hsum⟩ := Option.map_eq_some_iff.mp ih
    rw [terms, List.mapM_cons, number?_term, hnumbers]
    simp only [Option.bind_eq_bind, Option.bind_some, Option.pure_def, Option.map_some,
      List.foldr_cons, hsum, weight, Option.some.injEq]
    split
    · omega
    · omega

section Weight

variable {found found' : String → Bool} {paths : List String}

theorem weight_le_weight (h : ∀ path ∈ paths, found path = true → found' path = true) :
    weight found paths ≤ weight found' paths := by
  induction paths with
  | nil => exact Nat.le_refl _
  | cons path rest ih =>
    obtain ⟨hpath, hrest⟩ := List.forall_mem_cons.mp h
    rw [weight, weight]
    refine Nat.add_le_add ?_ (ih hrest)
    split
    · exact Nat.le_of_eq (if_pos (hpath ‹_›)).symm
    · exact Nat.zero_le _

theorem weight_congr (h : ∀ path ∈ paths, found path = found' path) :
    weight found paths = weight found' paths :=
  Nat.le_antisymm (weight_le_weight fun path hp hf => h path hp ▸ hf)
    (weight_le_weight fun path hp hf => (h path hp).symm ▸ hf)

theorem weight_append_of_not_found {before : List String}
    (h : ∀ path ∈ before, found path = false) (paths : List String) :
    weight found (before ++ paths) = weight found paths := by
  induction before with
  | nil => rfl
  | cons path rest ih =>
    obtain ⟨hpath, hrest⟩ := List.forall_mem_cons.mp h
    rw [List.cons_append, weight, hpath, if_neg Bool.false_ne_true, ih hrest, Nat.zero_add]

theorem weight_eq_zero (h : ∀ path ∈ paths, found path = false) : weight found paths = 0 := by
  rw [← List.append_nil paths, weight_append_of_not_found h, weight]

theorem weight_le_append (before : List String) :
    weight found paths ≤ weight found (before ++ paths) := by
  induction before with
  | nil => exact Nat.le_refl _
  | cons path rest ih =>
    rw [List.cons_append, weight]
    omega

theorem lt_weight_of_found {before rest : List String} {path : String}
    (h : found path = true) : rest.length < weight found (before ++ path :: rest) := by
  refine Nat.lt_of_lt_of_le ?_ (weight_le_append before)
  rw [weight, if_pos h]
  omega

theorem weight_eq_le_length (hnodup : paths.Nodup) (path : String) :
    weight (fun other => other = path) paths ≤ paths.length := by
  induction paths with
  | nil => exact Nat.le_refl _
  | cons first rest ih =>
    obtain ⟨hfirst, hrest⟩ := List.nodup_cons.mp hnodup
    rw [weight, List.length_cons]
    split
    · rename_i heq
      have hnone : ∀ other ∈ rest, decide (other = path) = false := by
        intro other hother
        exact decide_eq_false fun he => hfirst (of_decide_eq_true heq ▸ he ▸ hother)
      have hzero := weight_eq_zero hnone
      omega
    · have hlater := ih hrest
      omega

end Weight

section Ranking

variable {scope : Scope} {s : Search} {document : Document} {field lesser path : String}

/-- The text is at some path of the field, and at no path of another one. -/
def FoundOnlyIn (scope : Scope) (s : Search) (document : Document) (field : String) : Prop :=
  (∃ path ∈ scope.queryPaths field, s.found document path = true) ∧
    ∀ other ∈ s.fields, other ≠ field → ∀ path ∈ scope.queryPaths other,
      s.found document path = false

def isOwn (scope : Scope) (s : Search) (field path : String) : Bool :=
  path ∈ scope.queryPaths field ∧ ∀ other ∈ s.fields, other ≠ field → path ∉ scope.queryPaths other

/-- Each path that only `field` has weighs more than all those together that only `lesser` has. -/
def Outweighs (scope : Scope) (s : Search) (field lesser : String) : Prop :=
  ∀ path, isOwn scope s field path = true →
    weight (isOwn scope s lesser) (s.paths scope) <
      weight (fun other => other = path) (s.paths scope)

/-- Whatever has the text in `field` only scores lower than whatever has it in `lesser` only. -/
def RanksBefore (scope : Scope) (s : Search) (score : Value) (field lesser : String) : Prop :=
  ∀ better worse : Document, FoundOnlyIn scope s better field → FoundOnlyIn scope s worse lesser →
    ∃ low high, score? better score = some low ∧ score? worse score = some high ∧ low < high

theorem isOwn_iff : isOwn scope s field path = true ↔
    path ∈ scope.queryPaths field ∧
      ∀ other ∈ s.fields, other ≠ field → path ∉ scope.queryPaths other :=
  decide_eq_true_iff

theorem FoundOnlyIn.isOwn (h : FoundOnlyIn scope s document field) (hpath : path ∈ s.paths scope)
    (hfound : s.found document path = true) : isOwn scope s field path = true := by
  obtain ⟨other, hother, hpath⟩ := List.mem_flatMap.mp hpath
  have hnone : ∀ other ∈ s.fields, other ≠ field → path ∉ scope.queryPaths other := by
    intro other hother hne hp
    rw [h.2 other hother hne path hp] at hfound
    cases hfound
  have heq : other = field := by
    by_contra hne
    exact hnone other hother hne hpath
  exact isOwn_iff.mpr ⟨heq ▸ hpath, hnone⟩

def withTextAt (places : String → Bool) : Document :=
  fun path _ _ => places path

theorem foundOnlyIn_withTextAt {places : String → Bool}
    (hplaces : ∀ path, places path = true → Search.isOwn scope s field path = true)
    (hsome : places path = true) : FoundOnlyIn scope s (withTextAt places) field := by
  refine ⟨⟨path, (isOwn_iff.mp (hplaces path hsome)).1, hsome⟩, ?_⟩
  intro other hother hne path hpath
  by_contra hfound
  have hfound : places path = true := Bool.not_eq_false _ ▸ hfound
  exact (isOwn_iff.mp (hplaces path hfound)).2 other hother hne hpath

def scoring (scope : Scope) (s : Search) : Value :=
  .map [("$sum", .list (s.terms (s.paths scope)))]

theorem exists_stages_eq (h : s.isApplicable scope = true) :
    ∃ criteria sorts, s.stages scope =
      .matching criteria :: .addFields [(.text relevanceField, s.scoring scope)] :: sorts := by
  rw [stages, if_pos h]
  exact ⟨_, _, rfl⟩

theorem ranksBefore_iff (hfield : field ∈ s.fields) :
    RanksBefore scope s (s.scoring scope) field lesser ↔ Outweighs scope s field lesser := by
  simp only [RanksBefore, scoring, score?_terms]
  constructor
  · intro hranks path hpath
    have hmem : path ∈ s.paths scope :=
      List.mem_flatMap.mpr ⟨field, hfield, (isOwn_iff.mp hpath).1⟩
    -- The better document has the text at `path` alone, the worse one wherever it may.
    have hbetter : FoundOnlyIn scope s (withTextAt fun other => other = path) field := by
      refine foundOnlyIn_withTextAt (fun other ho => ?_) (decide_eq_true (rfl : path = path))
      rwa [of_decide_eq_true ho]
    by_cases hsome : ∃ other, isOwn scope s lesser other = true
    · obtain ⟨other, hother⟩ := hsome
      have hworse : FoundOnlyIn scope s (withTextAt (isOwn scope s lesser)) lesser :=
        foundOnlyIn_withTextAt (fun _ ho => ho) hother
      obtain ⟨low, high, hlow, hhigh, hlt⟩ := hranks _ _ hbetter hworse
      cases hlow
      cases hhigh
      exact Int.ofNat_lt.mp (Int.neg_lt_neg_iff.mp hlt)
    · have hnone : ∀ other ∈ s.paths scope, isOwn scope s lesser other = false :=
        fun other _ => Bool.eq_false_iff.mpr fun ho => hsome ⟨other, ho⟩
      obtain ⟨before, rest, hpaths⟩ := List.append_of_mem hmem
      rw [weight_eq_zero hnone, hpaths]
      exact Nat.zero_lt_of_lt (lt_weight_of_found (decide_eq_true rfl))
  · intro houtweighs better worse hbetter hworse
    refine ⟨_, _, rfl, rfl, ?_⟩
    obtain ⟨path, hpath, hfound⟩ := hbetter.1
    have hmem : path ∈ s.paths scope := List.mem_flatMap.mpr ⟨field, hfield, hpath⟩
    have hlow := houtweighs path (hbetter.isOwn hmem hfound)
    have hbetterWeight : weight (fun other => other = path) (s.paths scope) ≤
        weight (s.found better) (s.paths scope) := by
      refine weight_le_weight fun other _ he => ?_
      rwa [of_decide_eq_true he]
    have hworseWeight : weight (s.found worse) (s.paths scope) ≤
        weight (isOwn scope s lesser) (s.paths scope) :=
      weight_le_weight fun other hother hf => hworse.isOwn hother hf
    omega

theorem pairwise_ranksBefore_iff :
    s.fields.Pairwise (RanksBefore scope s (s.scoring scope)) ↔
      s.fields.Pairwise (Outweighs scope s) :=
  List.Pairwise.iff_of_mem fun hfield _ => ranksBefore_iff hfield

end Ranking

section Distinct

variable {scope : Scope} {s : Search} {field lesser path : String}

theorem isOwn_of_nodup (hnodup : (s.paths scope).Nodup) (hfield : field ∈ s.fields) :
    isOwn scope s field path = true ↔ path ∈ scope.queryPaths field := by
  rw [isOwn_iff, and_iff_left_iff_imp]
  intro hpath other hother hne hp
  have hdisjoint := (List.nodup_flatMap.mp hnodup).2
  have hsymm : Std.Symm (Function.onFun List.Disjoint scope.queryPaths) :=
    ⟨fun _ _ h => List.disjoint_left.mpr fun _ hb ha => h ha hb⟩
  exact hdisjoint.forall hother hfield hne hp hpath

theorem outweighs_of_not_translatable (hnodup : (s.paths scope).Nodup) {before behind : List String}
    (hfields : s.fields = before ++ behind) (hfield : field ∈ before) (hlesser : lesser ∈ behind)
    (hplain : scope.isTranslatable lesser = false) : Outweighs scope s field lesser := by
  have hpaths : s.paths scope =
      before.flatMap scope.queryPaths ++ behind.flatMap scope.queryPaths := by
    rw [paths, hfields, List.flatMap_append]
  intro path hpath
  have hmem : path ∈ before.flatMap scope.queryPaths :=
    List.mem_flatMap.mpr ⟨field, hfield, (isOwn_iff.mp hpath).1⟩
  have hown : weight (isOwn scope s lesser) (s.paths scope) =
      weight (fun other => other = lesser) (s.paths scope) := by
    refine weight_congr fun other _ => ?_
    rw [Bool.eq_iff_iff, isOwn_of_nodup hnodup (hfields ▸ List.mem_append_right _ hlesser),
      Scope.queryPaths_of_not_translatable hplain, List.mem_singleton, decide_eq_true_eq]
  have hlesserPath : lesser ∈ behind.flatMap scope.queryPaths := by
    refine List.mem_flatMap.mpr ⟨lesser, hlesser, ?_⟩
    rw [Scope.queryPaths_of_not_translatable hplain]
    exact List.mem_singleton.mpr rfl
  rw [hown, hpaths]
  rw [hpaths] at hnodup
  obtain ⟨_, hbehind, hdisjoint⟩ := List.nodup_append.mp hnodup
  have hskip : ∀ other ∈ before.flatMap scope.queryPaths, decide (other = lesser) = false :=
    fun other hother => decide_eq_false (hdisjoint other hother lesser hlesserPath)
  rw [weight_append_of_not_found hskip]
  obtain ⟨first, rest, hsplit⟩ := List.append_of_mem hmem
  have hle := weight_eq_le_length hbehind lesser
  have hlt : (rest ++ behind.flatMap scope.queryPaths).length <
      weight (fun other => other = path)
        (first ++ path :: (rest ++ behind.flatMap scope.queryPaths)) :=
    lt_weight_of_found (decide_eq_true rfl)
  rw [hsplit, List.append_assoc, List.cons_append]
  rw [List.length_append] at hlt
  omega

theorem not_outweighs_of_translatable (hnodup : (s.paths scope).Nodup) {before behind : List String}
    (hfields : s.fields = before ++ field :: lesser :: behind)
    (htranslatable : scope.isTranslatable lesser = true) : ¬Outweighs scope s field lesser := by
  obtain ⟨first, last, hlast⟩ := Scope.exists_last_queryPath scope field
  have htwo : scope.queryPaths lesser = [scope.ownPath lesser, scope.fallbackPath lesser] := by
    rw [Scope.queryPaths, htranslatable, if_pos rfl]
  have hmem : lesser ∈ s.fields := by rw [hfields]; simp
  have hpaths : s.paths scope = (before.flatMap scope.queryPaths ++ first) ++ last ::
      scope.ownPath lesser :: scope.fallbackPath lesser :: behind.flatMap scope.queryPaths := by
    rw [paths, hfields]
    simp [hlast, htwo]
  have hlastOwn : isOwn scope s field last = true := by
    rw [isOwn_of_nodup hnodup (by rw [hfields]; simp), hlast]
    simp
  have hlastWeight : weight (fun other => other = last) (s.paths scope) ≤
      (behind.flatMap scope.queryPaths).length + 3 := by
    rw [hpaths] at hnodup ⊢
    obtain ⟨_, hrest, hdisjoint⟩ := List.nodup_append.mp hnodup
    have hskip : ∀ other ∈ before.flatMap scope.queryPaths ++ first,
        decide (other = last) = false :=
      fun other hother => decide_eq_false (hdisjoint other hother last List.mem_cons_self)
    rw [weight_append_of_not_found hskip]
    exact weight_eq_le_length hrest last
  have hlesserWeight : 2 * (behind.flatMap scope.queryPaths).length + 3 ≤
      weight (isOwn scope s lesser) (s.paths scope) := by
    have hown (path : String) (hpath : path ∈ scope.queryPaths lesser) :
        isOwn scope s lesser path = true := (isOwn_of_nodup hnodup hmem).mpr hpath
    rw [hpaths]
    refine Nat.le_trans ?_ (weight_le_append _)
    rw [weight, weight, weight, hown (scope.ownPath lesser) (by rw [htwo]; simp),
      hown (scope.fallbackPath lesser) (by rw [htwo]; simp)]
    simp only [List.length_cons, if_true]
    omega
  intro houtweighs
  have hlt := houtweighs last hlastOwn
  omega

theorem exists_adjacent_of_mem_tail {α : Type} {l : List α} {a : α} (h : a ∈ l.tail) :
    ∃ before b behind, l = before ++ b :: a :: behind := by
  cases l with
  | nil => cases h
  | cons first rest =>
    obtain ⟨pre, behind, rfl⟩ := List.append_of_mem h
    have hne : first :: pre ≠ [] := List.cons_ne_nil _ _
    refine ⟨(first :: pre).dropLast, (first :: pre).getLast hne, behind, ?_⟩
    rw [List.append_cons (first :: pre).dropLast, List.dropLast_concat_getLast hne,
      List.cons_append]

/-- As long as no path comes twice, the fields outweigh one another in their order just when none
but the first is stored per language. -/
theorem pairwise_outweighs_iff (hnodup : (s.paths scope).Nodup) :
    s.fields.Pairwise (Outweighs scope s) ↔
      ∀ field ∈ s.fields.tail, scope.isTranslatable field = false := by
  rw [List.pairwise_iff_forall_sublist]
  constructor
  · intro hpairwise lesser hlesser
    by_contra htranslatable
    obtain ⟨before, field, behind, hfields⟩ := exists_adjacent_of_mem_tail hlesser
    refine not_outweighs_of_translatable hnodup hfields (Bool.not_eq_false _ ▸ htranslatable)
      (hpairwise ?_)
    rw [hfields]
    exact List.sublist_append_of_sublist_right (.cons_cons _ (.cons_cons _ (List.nil_sublist _)))
  · intro hplain field lesser hsub
    have hlesser : lesser ∈ s.fields.tail := List.singleton_sublist.mp hsub.tail
    obtain ⟨before, behind, hfields, hfield, hrest⟩ := List.cons_sublist_iff.mp hsub
    exact outweighs_of_not_translatable hnodup hfields hfield (List.singleton_sublist.mp hrest)
      (hplain lesser hlesser)

end Distinct

end QueryPipeline.Search

namespace QueryPipeline.Session

open Search

/-- A search of fields that hold text selects documents and scores them. Whatever has the text in a
field only scores lower than whatever has it in a later field only just when the paths of the one
outweigh those of the other. While no path comes twice, they do for all fields just when none but
the first is stored per language. -/
theorem search_ranks_iff {s : Session} {fields : Value} {search : Search}
    (happlied : s.applied.contains .search = false) (hcompiled : s.compiled = none)
    (hread : Search.read s.parameters fields = .ok search)
    (happlicable : search.isApplicable s.scope = true) :
    ∃ criteria score sorts after, s.apply (.search fields) = (.ok .nothing, after) ∧
      after.stages =
        s.stages ++ .matching criteria :: .addFields [(.text relevanceField, score)] :: sorts ∧
      (search.fields.Pairwise (RanksBefore s.scope search score) ↔
        search.fields.Pairwise (Outweighs s.scope search)) ∧
      ((search.paths s.scope).Nodup →
        (search.fields.Pairwise (RanksBefore s.scope search score) ↔
          ∀ field ∈ search.fields.tail, s.scope.isTranslatable field = false)) := by
  have hc : s.compile (.search fields) =
      .ok { lines := searchLines s.scope search, stages := .ok (search.stages s.scope) } := by
    rw [compile, hread]
    rfl
  have hfresh : s.applied.contains (Clause.search fields).operation = false := happlied
  obtain ⟨criteria, sorts, hstages⟩ := exists_stages_eq happlicable
  refine ⟨criteria, search.scoring s.scope, sorts, _, apply_eq hfresh hcompiled hc rfl, ?_,
    pairwise_ranksBefore_iff, fun hnodup => ?_⟩
  · rw [hstages]
  · exact pairwise_ranksBefore_iff.trans (pairwise_outweighs_iff hnodup)

theorem search_ranks_iff_description :
    let schema : Schema :=
      { origin := .mapping, modelName := none,
        fields := [("name", { type := .string }), ("description", { type := .string })],
        translatable := ["description"], collection := none }
    let s : Session :=
      { scope := { schema, settings := { translates := .bool true }, asked := some (.text "it") }
        parameters := { control := [("search", .text "blue")], filters := [], joins := [] } }
    let search : Search :=
      { text := "blue", fields := ["name", "description"], direction := none }
    ∃ criteria score sorts after,
      s.apply (.search (.text "name;description")) = (.ok .nothing, after) ∧
      after.stages =
        s.stages ++ .matching criteria :: .addFields [(.text relevanceField, score)] :: sorts ∧
      (search.fields.Pairwise (RanksBefore s.scope search score) ↔
        search.fields.Pairwise (Outweighs s.scope search)) ∧
      ((search.paths s.scope).Nodup →
        (search.fields.Pairwise (RanksBefore s.scope search score) ↔
          ∀ field ∈ search.fields.tail, s.scope.isTranslatable field = false)) := by
  intro schema s search
  exact search_ranks_iff rfl rfl rfl rfl

/-- The text in the more important name scores -4, and in both translations of the description
it scores -5. -/
theorem search_ranks_description_before_name :
    let schema : Schema :=
      { origin := .mapping, modelName := none,
        fields := [("name", { type := .string }), ("description", { type := .string }),
          ("brand", { type := .string })],
        translatable := ["description"], collection := none }
    let settings : Settings := { translates := .bool true }
    let query : Value := .map [("search", .text "blue")]
    let s : Session :=
      { scope := { schema, settings, asked := some (.text "it") }
        parameters := { control := [("search", .text "blue")], filters := [], joins := [] } }
    let search : Search :=
      { text := "blue", fields := ["name", "description", "brand"], direction := none }
    let better := withTextAt fun path => path = "name"
    let worse := withTextAt fun path =>
      path = "translations.it.description" || path = "translations.en.description"
    start (.schema schema) settings query (.text "it") = ([], .ok s) ∧
      FoundOnlyIn s.scope search better "name" ∧
      FoundOnlyIn s.scope search worse "description" ∧
      ∃ criteria score after, s.apply (.search (.text "name;description;brand")) =
          (.ok .nothing, after) ∧
        after.stages = [.matching criteria, .addFields [(.text "relevance", score)]] ∧
        score? better score = some (-4) ∧ score? worse score = some (-5) ∧
        ¬RanksBefore s.scope search score "name" "description" := by
  intro schema settings query s search better worse
  have hname : isOwn s.scope search "name" "name" = true := by
    subst s search schema settings
    decide +kernel
  have hitalian : isOwn s.scope search "description" "translations.it.description" = true := by
    subst s search schema settings
    decide +kernel
  have henglish : isOwn s.scope search "description" "translations.en.description" = true := by
    subst s search schema settings
    decide +kernel
  have hbetter : FoundOnlyIn s.scope search better "name" := by
    refine foundOnlyIn_withTextAt (fun path hpath => ?_) (decide_eq_true (rfl : "name" = "name"))
    rwa [of_decide_eq_true hpath]
  have hworse : FoundOnlyIn s.scope search worse "description" := by
    have hsome : (fun path => decide (path = "translations.it.description") ||
        decide (path = "translations.en.description")) "translations.it.description" = true := rfl
    refine foundOnlyIn_withTextAt (fun path hpath => ?_) hsome
    rcases Bool.or_eq_true_iff.mp hpath with hpath | hpath
    · rwa [of_decide_eq_true hpath]
    · rwa [of_decide_eq_true hpath]
  have hlow : score? better (search.scoring s.scope) = some (-4) := by
    subst better s search schema settings
    decide +kernel
  have hhigh : score? worse (search.scoring s.scope) = some (-5) := by
    subst worse s search schema settings
    decide +kernel
  have happly : s.apply (.search (.text "name;description;brand")) = _ := rfl
  refine ⟨rfl, hbetter, hworse, _, search.scoring s.scope, _, happly, rfl, hlow, hhigh, ?_⟩
  intro hranks
  obtain ⟨low, high, hlow', hhigh', hlt⟩ := hranks better worse hbetter hworse
  rw [hlow] at hlow'
  rw [hhigh] at hhigh'
  cases hlow'
  cases hhigh'
  exact absurd hlt (by decide)

end QueryPipeline.Session
