import QueryPipeline.Proofs.Query.Encoding

namespace QueryPipeline

namespace Value

def at? : List String → Value → Option Value
  | [], v => some v
  | key :: path, .map entries => (Entries.get? entries key).bind (at? path)
  | _ :: _, _ => none

def Apart (path other : List String) : Prop :=
  ¬path <+: other ∧ ¬other <+: path

/-- A text, or a map with entries, all of which are such values. -/
inductive Filled : Value → Prop where
  | text (s : String) : Filled (.text s)
  | map {entries : Entries Value} (nonempty : entries ≠ [])
    (values : ∀ e ∈ entries, e.2.Filled) : Filled (.map entries)

theorem apart_cons_iff {key : String} {path other : List String} :
    Apart (key :: path) (key :: other) ↔ Apart path other := by
  simp only [Apart, List.cons_prefix_cons, true_and]

theorem apart_of_ne {key key' : String} (h : key ≠ key') (path other : List String) :
    Apart (key :: path) (key' :: other) := by
  simp [Apart, List.cons_prefix_cons, h, h.symm]

theorem not_apart_nil (path : List String) : ¬Apart [] path :=
  fun h => h.1 List.nil_prefix

theorem at?_cons (key : String) (path : List String) (entries : Entries Value) :
    at? (key :: path) (.map entries) = (Entries.get? entries key).bind (at? path) := rfl

theorem at?_put_self (entries : Entries Value) (key : String) (v : Value) (path : List String) :
    at? (key :: path) (.map (Entries.put entries key v)) = at? path v := by
  rw [at?_cons, Entries.get?_put_self, Option.bind_some]

theorem at?_put_of_ne (entries : Entries Value) {key other : String} (h : key ≠ other) (v : Value)
    (path : List String) :
    at? (other :: path) (.map (Entries.put entries key v)) =
      at? (other :: path) (.map entries) := by
  rw [at?_cons, Entries.get?_put_of_ne _ _ (beq_eq_false_iff_ne.mpr h), at?_cons]

theorem Filled.entries {entries : Entries Value} (h : (Value.map entries).Filled) :
    ∀ e ∈ entries, e.2.Filled := by
  cases h with
  | map nonempty values => exact values

end Value

namespace QueryString

open Text Value

theorem splitKey_ne_nil (key : List Char) : splitKey key ≠ [] := by
  unfold splitKey
  dsimp only
  split
  · exact List.cons_ne_nil _ _
  · split
    · exact List.cons_ne_nil _ _
    · split
      · exact List.cons_ne_nil _ _
      · assumption

theorem path_ne_nil {s : String} {pair : List String × String} (h : pair ∈ pairs s) :
    pair.1 ≠ [] := by
  obtain ⟨written, _, rfl⟩ := List.mem_map.mp h
  exact fun hnil => splitKey_ne_nil _ (List.map_eq_nil_iff.mp hnil)

section Place

variable {path : List String}

theorem at?_mapUnder (hpath : path ≠ []) (segment : String) (entries : Entries Value) :
    at? path (.map (mapUnder entries segment)) = at? (segment :: path) (.map entries) := by
  cases path with
  | nil => exact absurd rfl hpath
  | cons key rest =>
    rw [at?_cons segment]
    cases hunder : Entries.get? entries segment with
    | none => simp [mapUnder, hunder, at?]
    | some v =>
      cases v with
      | map inner => simp [mapUnder, hunder]
      | _ => simp [mapUnder, hunder, at?]

theorem place_eq_put (segment : String) (rest : List String) (text : String)
    (entries : Entries Value) :
    ∃ v, place (segment :: rest) text entries = Entries.put entries segment v := by
  cases rest with
  | nil => exact ⟨.text text, rfl⟩
  | cons next rest => exact ⟨_, place_under (List.cons_ne_nil next rest) segment text entries⟩

/-- A text that is put at a path is found there, and of the other texts those are still found that
stand neither above the path nor beneath it. -/
theorem at?_place (hpath : path ≠ []) (text s : String) (entries : Entries Value)
    (target : List String) :
    at? target (.map (place path text entries)) = some (.text s) ↔
      path = target ∧ text = s ∨
        Apart path target ∧ at? target (.map entries) = some (.text s) := by
  induction path generalizing entries target with
  | nil => exact absurd rfl hpath
  | cons segment rest ih =>
    cases target with
    | nil => simp [at?]
    | cons key target =>
      by_cases hkey : segment = key
      · subst hkey
        by_cases hrest : rest = []
        · subst hrest
          rw [place, at?_put_self, apart_cons_iff]
          cases target <;> simp [at?, not_apart_nil]
        · rw [place_under hrest, at?_put_self, ih hrest, apart_cons_iff, List.cons.injEq,
            and_iff_right rfl]
          refine or_congr_right (and_congr_right fun hapart => ?_)
          have htarget : target ≠ [] := fun hnil => hapart.2 (hnil ▸ List.nil_prefix)
          rw [at?_mapUnder htarget]
      · obtain ⟨v, hput⟩ := place_eq_put segment rest text entries
        rw [hput, at?_put_of_ne entries hkey]
        simp [hkey, apart_of_ne hkey]

theorem filled_mapUnder {entries : Entries Value} (h : ∀ e ∈ entries, e.2.Filled)
    (segment : String) : ∀ e ∈ mapUnder entries segment, e.2.Filled := by
  unfold mapUnder
  split
  · rename_i inner hunder
    obtain ⟨e, he, _, hinner⟩ := Entries.mem_of_get?_eq_some hunder
    have hfilled := h e he
    rw [hinner] at hfilled
    exact hfilled.entries
  · exact nofun

theorem put_ne_nil (entries : Entries Value) (key : String) (v : Value) :
    Entries.put entries key v ≠ [] := by
  intro hnil
  have hself := Entries.get?_put_self entries key v
  rw [hnil] at hself
  cases hself

theorem filled_put {entries : Entries Value} (h : ∀ e ∈ entries, e.2.Filled) {v : Value}
    (hv : v.Filled) (key : String) : (Value.map (Entries.put entries key v)).Filled := by
  refine .map (put_ne_nil entries key v) ?_
  intro e he
  rcases Entries.mem_put he with he | he
  · exact h e he
  · rw [he]
    exact hv

theorem filled_place (hpath : path ≠ []) (text : String) {entries : Entries Value}
    (h : ∀ e ∈ entries, e.2.Filled) : (Value.map (place path text entries)).Filled := by
  induction path generalizing entries with
  | nil => exact absurd rfl hpath
  | cons segment rest ih =>
    by_cases hrest : rest = []
    · rw [hrest, place]
      exact filled_put h (.text text) segment
    · rw [place_under hrest]
      exact filled_put h (ih hrest (filled_mapUnder h segment)) segment

end Place

def Spares (pairs : List (List String × String)) (path : List String) : Prop :=
  ∀ pair ∈ pairs, Apart pair.1 path

def LastPut (pairs : List (List String × String)) (path : List String) (text : String) : Prop :=
  ∃ before after, pairs = before ++ (path, text) :: after ∧ Spares after path

theorem lastPut_cons {pair : List String × String} {rest : List (List String × String)}
    {path : List String} {text : String} :
    LastPut (pair :: rest) path text ↔
      LastPut rest path text ∨ Spares rest path ∧ pair.1 = path ∧ pair.2 = text := by
  constructor
  · intro h
    obtain ⟨before, after, hpairs, hspares⟩ := h
    cases before with
    | nil =>
      obtain ⟨rfl, rfl⟩ := List.cons.inj hpairs
      exact .inr ⟨hspares, rfl, rfl⟩
    | cons first before =>
      obtain ⟨rfl, rfl⟩ := List.cons.inj hpairs
      exact .inl ⟨before, after, rfl, hspares⟩
  · intro h
    rcases h with ⟨before, after, rfl, hspares⟩ | ⟨hspares, rfl, rfl⟩
    · exact ⟨pair :: before, after, rfl, hspares⟩
    · exact ⟨[], rest, rfl, hspares⟩

/-- A text that is found after all pairs was put by the last of them that is in its way, or was
there before and none is in its way. -/
theorem at?_foldl_place {pairs : List (List String × String)}
    (hpaths : ∀ pair ∈ pairs, pair.1 ≠ []) (entries : Entries Value) (path : List String)
    (text : String) :
    at? path (.map (pairs.foldl (fun placed pair => place pair.1 pair.2 placed) entries)) =
        some (.text text) ↔
      LastPut pairs path text ∨
        Spares pairs path ∧ at? path (.map entries) = some (.text text) := by
  induction pairs generalizing entries with
  | nil => simp [LastPut, Spares]
  | cons pair rest ih =>
    obtain ⟨hpair, hrest⟩ := List.forall_mem_cons.mp hpaths
    have hspares : Spares (pair :: rest) path ↔
        Apart pair.1 path ∧ Spares rest path := List.forall_mem_cons
    rw [List.foldl_cons, ih hrest, at?_place hpair, lastPut_cons, hspares]
    tauto

theorem filled_foldl_place {pairs : List (List String × String)}
    (hpaths : ∀ pair ∈ pairs, pair.1 ≠ []) {entries : Entries Value}
    (h : ∀ e ∈ entries, e.2.Filled) :
    ∀ e ∈ pairs.foldl (fun placed pair => place pair.1 pair.2 placed) entries, e.2.Filled := by
  induction pairs generalizing entries with
  | nil => exact h
  | cons pair rest ih =>
    obtain ⟨hpair, hrest⟩ := List.forall_mem_cons.mp hpaths
    exact ih hrest (filled_place hpair pair.2 h).entries

/-- A query string in pieces: question marks may stand in front of them, and an ampersand between
two of them. -/
structure Pieces (s : String) (pieces : List (List Char)) : Prop where
  joined : ∃ marks, s.toList = List.replicate marks '?' ++ joinWith '&' pieces
  unmarked : (joinWith '&' pieces).head? ≠ some '?'
  undivided : ∀ piece ∈ pieces, '&' ∉ piece

/-- The path of a piece: what its key is split into, the key being what is in front of the first
equality sign. -/
def pathOf (piece : List Char) : List String :=
  (splitKey (unquotePlus (piece.takeWhile (· ≠ '=')))).map String.ofList

def textOf (piece : List Char) : String :=
  String.ofList (unquotePlus (piece.dropWhile (· ≠ '=')).tail)

theorem exists_pieces (s : String) : ∃ pieces, Pieces s pieces := by
  let body := s.toList.dropWhile (· = '?')
  have hbody : joinWith '&' (splitOn '&' body) = body := joinWith_splitOn '&' body
  refine ⟨splitOn '&' body, ?joined, ?unmarked, fun _ => not_mem_of_mem_splitOn⟩
  case joined =>
    have hmarks : s.toList.takeWhile (· = '?') =
        List.replicate (s.toList.takeWhile (· = '?')).length '?' := by
      refine List.eq_replicate_iff.mpr ⟨rfl, fun c hc => ?_⟩
      simpa using List.mem_takeWhile_imp hc
    refine ⟨(s.toList.takeWhile (· = '?')).length, ?_⟩
    rw [hbody, ← hmarks, List.takeWhile_append_dropWhile]
  case unmarked =>
    rw [hbody]
    intro hhead
    have hnot := List.head?_dropWhile_not (· = '?') s.toList
    rw [hhead] at hnot
    cases hnot

theorem readPair_eq (piece : List Char) : readPair piece = (pathOf piece, textOf piece) := by
  obtain ⟨hkey, htext⟩ := @cutFirst_eq '=' piece
  rw [readPair, pathOf, textOf, ← hkey, ← htext]

theorem pairs_eq {s : String} {pieces : List (List Char)} (h : Pieces s pieces) :
    pairs s = (pieces.filter (· ≠ [])).map readPair := by
  obtain ⟨⟨marks, hjoined⟩, hunmarked, hundivided⟩ := h
  rw [pairs, hjoined, dropWhile_marks marks hunmarked]
  cases pieces with
  | nil => rfl
  | cons piece rest => rw [splitOn_joinWith (List.cons_ne_nil piece rest) hundivided]

theorem lastPut_readPair_iff {pieces : List (List Char)} {path : List String} {text : String} :
    LastPut ((pieces.filter (· ≠ [])).map readPair) path text ↔
      ∃ before piece after, pieces = before ++ piece :: after ∧ piece ≠ [] ∧
        pathOf piece = path ∧ textOf piece = text ∧
        ∀ later ∈ after, later ≠ [] → Apart (pathOf later) path := by
  have hspares (after : List (List Char)) :
      Spares ((after.filter (· ≠ [])).map readPair) path ↔
        ∀ later ∈ after, later ≠ [] → Apart (pathOf later) path := by
    rw [Spares, List.forall_mem_map]
    simp only [List.mem_filter, decide_eq_true_eq, and_imp, readPair_eq]
  constructor
  · intro h
    obtain ⟨read, unread, hpairs, hlater⟩ := h
    obtain ⟨kept, later, hkept, -, hmap⟩ := List.map_eq_append_iff.mp hpairs
    obtain ⟨piece, rest, rfl, hpiece, rfl⟩ := List.map_eq_cons_iff.mp hmap
    obtain ⟨before, tail, rfl, -, htail⟩ := List.filter_eq_append_iff.mp hkept
    obtain ⟨skipped, after, rfl, -, hne, rfl⟩ := List.filter_eq_cons_iff.mp htail
    rw [readPair_eq, Prod.mk.injEq] at hpiece
    exact ⟨before ++ skipped, piece, after, (List.append_assoc _ _ _).symm, of_decide_eq_true hne,
      hpiece.1, hpiece.2, (hspares after).mp hlater⟩
  · intro h
    obtain ⟨before, piece, after, rfl, hne, rfl, rfl, hlater⟩ := h
    refine ⟨(before.filter (· ≠ [])).map readPair, (after.filter (· ≠ [])).map readPair, ?_,
      (hspares after).mpr hlater⟩
    simp [hne, readPair_eq piece]

/-- Looking a path up in a parsed query string gives a text exactly when a piece that is not empty
puts the text there and no later piece has the path, or one above it or beneath it; and there is
nothing in it but texts, and maps with entries. -/
theorem parse_last_pair (s : String) :
    (∃ pieces, Pieces s pieces) ∧ ∀ pieces, Pieces s pieces →
      (∀ path text, at? path (.map (parse s)) = some (.text text) ↔
        ∃ before piece after, pieces = before ++ piece :: after ∧ piece ≠ [] ∧
          pathOf piece = path ∧ textOf piece = text ∧
          ∀ later ∈ after, later ≠ [] → ¬pathOf later <+: path ∧ ¬path <+: pathOf later) ∧
      ∀ e ∈ parse s, e.2.Filled := by
  have hpaths : ∀ pair ∈ pairs s, pair.1 ≠ [] := fun _ => path_ne_nil
  refine ⟨exists_pieces s, fun pieces hpieces => ⟨?_, ?_⟩⟩
  · intro path text
    have hnone : at? path (.map []) ≠ some (.text text) := by cases path <;> simp [at?]
    rw [parse, at?_foldl_place hpaths, or_iff_left fun h => hnone h.2, pairs_eq hpieces,
      lastPut_readPair_iff]
    rfl
  · apply filled_foldl_place hpaths
    simp

theorem parse_last_pair_conflicting :
    let s := "?a=1&&a[b]=2&a.b.c=3&a[d]=%34"
    let pieces := ["a=1".toList, [], "a[b]=2".toList, "a.b.c=3".toList, "a[d]=%34".toList]
    Pieces s pieces ∧ at? ["a", "b", "c"] (.map (parse s)) = some (.text "3") ∧
      at? ["a", "d"] (.map (parse s)) = some (.text "4") ∧ ∀ e ∈ parse s, e.2.Filled := by
  intro s pieces
  have hpieces : Pieces s pieces :=
    ⟨⟨1, by decide +kernel⟩, by decide +kernel, by decide +kernel⟩
  have hdeep : pathOf "a.b.c=3".toList = ["a", "b", "c"] ∧ textOf "a.b.c=3".toList = "3" := by
    decide +kernel
  have hlast : pathOf "a[d]=%34".toList = ["a", "d"] ∧ textOf "a[d]=%34".toList = "4" := by
    decide +kernel
  obtain ⟨hfound, hfilled⟩ := (parse_last_pair s).2 pieces hpieces
  refine ⟨hpieces, (hfound _ _).mpr ?deep, (hfound _ _).mpr ?last, hfilled⟩
  case deep =>
    refine ⟨["a=1".toList, [], "a[b]=2".toList], "a.b.c=3".toList, ["a[d]=%34".toList], rfl, nofun,
      hdeep.1, hdeep.2, ?_⟩
    simp only [List.forall_mem_singleton, hlast.1]
    decide
  case last =>
    exact ⟨["a=1".toList, [], "a[b]=2".toList, "a.b.c=3".toList], "a[d]=%34".toList, [], rfl,
      nofun, hlast.1, hlast.2, nofun⟩

example : parse "a=1&a[b]=2&a.b.c=3&a[d]=4" =
    [("a", .map [("b", .map [("c", .text "3")]), ("d", .text "4")])] := by cbv

end QueryString

end QueryPipeline
