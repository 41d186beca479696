import QueryPipeline.Proofs.Query.DottedNotation
import QueryPipeline.Proofs.Text.Percent
import QueryPipeline.Proofs.Text.Pieces

namespace QueryPipeline

open Text

/-- A key that can be a part of another one. -/
structure IsSegment (key : String) : Prop where
  nonempty : key ≠ ""
  undotted : '.' ∉ key.toList
  unopened : '[' ∉ key.toList
  unclosed : ']' ∉ key.toList

/-- What a query string can spell: texts, and maps that hold some of them under distinct keys. -/
inductive Value.Spellable : Value → Prop where
  | text (s : String) : Spellable (.text s)
  | map {entries : Entries Value} (nonempty : entries ≠ [])
    (distinct : (Entries.keys entries).Nodup) (segments : ∀ e ∈ entries, IsSegment e.1)
    (values : ∀ e ∈ entries, e.2.Spellable) : Spellable (.map entries)

namespace QueryString

def brackets (parts : List (List Char)) : List Char :=
  parts.flatMap fun part => '[' :: part ++ [']']

def segmentsOf (head : List Char) (parts : List (List Char)) : List (List Char) :=
  (splitOn '.' head ++ parts).filter (· ≠ [])

section Key

theorem bracketed?_inside {part : List Char} (h : ']' ∉ part) (inside rest : List Char) :
    bracketed? (some inside) (part ++ ']' :: rest) =
      (bracketed? none rest).map ((inside.reverse ++ part) :: ·) := by
  induction part generalizing inside with
  | nil => rw [List.nil_append, bracketed?, if_pos rfl, List.append_nil]
  | cons c part ih =>
    rw [List.mem_cons, not_or] at h
    rw [List.cons_append, bracketed?, if_neg (Ne.symm h.1), ih h.2, List.reverse_cons,
      List.append_assoc, List.singleton_append]

theorem bracketed?_brackets_append {parts : List (List Char)} (h : ∀ part ∈ parts, ']' ∉ part)
    {ending : List Char} (hending : bracketed? none ending = some []) :
    bracketed? none (brackets parts ++ ending) = some parts := by
  induction parts with
  | nil => exact hending
  | cons part rest ih =>
    obtain ⟨hpart, hrest⟩ := List.forall_mem_cons.mp h
    have hcons : brackets (part :: rest) ++ ending =
        '[' :: (part ++ ']' :: (brackets rest ++ ending)) := by
      simp [brackets]
    rw [hcons, bracketed?, if_pos rfl, bracketed?_inside hpart, ih hrest]
    rfl

theorem splitKey_append {head rest : List Char} {parts : List (List Char)} (hne : head ≠ [])
    (hhead : '[' ∉ head) (hopen : rest = [] ∨ ∃ more, rest = '[' :: more)
    (hparts : bracketed? none rest = some parts) :
    splitKey (head ++ rest) =
      if segmentsOf head parts = [] then [head ++ rest] else segmentsOf head parts := by
  have hbefore : ∀ c ∈ head, decide (c ≠ '[') = true := fun c hc =>
    decide_eq_true fun he => hhead (he ▸ hc)
  have htake : (head ++ rest).takeWhile (· ≠ '[') = head := by
    rw [List.takeWhile_append_of_pos hbefore]
    rcases hopen with h | ⟨more, h⟩ <;> simp [h]
  have hdrop : (head ++ rest).dropWhile (· ≠ '[') = rest := by
    rw [List.dropWhile_append_of_pos hbefore]
    rcases hopen with h | ⟨more, h⟩ <;> simp [h]
  rw [splitKey, htake, hdrop, hparts]
  exact if_neg hne

theorem splitKey_append_brackets {head : List Char} {parts : List (List Char)} (hne : head ≠ [])
    (hhead : '[' ∉ head) (hparts : ∀ part ∈ parts, ']' ∉ part) :
    splitKey (head ++ brackets parts) =
      if segmentsOf head parts = [] then [head ++ brackets parts] else segmentsOf head parts := by
  have hread : bracketed? none (brackets parts ++ []) = some parts :=
    bracketed?_brackets_append hparts rfl
  rw [List.append_nil] at hread
  apply splitKey_append hne hhead ?_ hread
  cases parts with
  | nil => exact .inl rfl
  | cons part rest => exact .inr ⟨_, rfl⟩

theorem splitKey_segments {dotted bracketed : List String} (hne : dotted ≠ [])
    (hsegments : ∀ segment ∈ dotted ++ bracketed, IsSegment segment) :
    splitKey (joinWith '.' (dotted.map String.toList) ++ brackets (bracketed.map String.toList)) =
      (dotted ++ bracketed).map String.toList := by
  have hnonempty : ∀ piece ∈ (dotted ++ bracketed).map String.toList, piece ≠ [] := by
    intro piece hpiece
    obtain ⟨segment, hsegment, rfl⟩ := List.mem_map.mp hpiece
    exact fun h => (hsegments segment hsegment).nonempty (String.toList_eq_nil_iff.mp h)
  obtain ⟨hdotted, hbracketed⟩ := List.forall_mem_append.mp hsegments
  have hpieces : ∀ piece ∈ dotted.map String.toList, '.' ∉ piece ∧ '[' ∉ piece := by
    intro piece hpiece
    obtain ⟨segment, hsegment, rfl⟩ := List.mem_map.mp hpiece
    exact ⟨(hdotted segment hsegment).undotted, (hdotted segment hsegment).unopened⟩
  have hmap : dotted.map String.toList ≠ [] := by simpa using hne
  have hsplit := splitOn_joinWith hmap fun piece hpiece => (hpieces piece hpiece).1
  have hfilter : ((dotted ++ bracketed).map String.toList).filter (· ≠ []) =
      (dotted ++ bracketed).map String.toList := by
    rw [List.filter_eq_self]
    exact fun piece hpiece => decide_eq_true (hnonempty piece hpiece)
  rw [splitKey_append_brackets ?head ?unopened ?unclosed, segmentsOf, hsplit, ← List.map_append,
    hfilter, if_neg (by simp [hne])]
  case head =>
    intro h
    have hempty : [] ∈ dotted.map String.toList := by
      rw [← hsplit, h]
      exact List.mem_singleton_self _
    rw [List.map_append] at hnonempty
    exact hnonempty [] (List.mem_append_left _ hempty) rfl
  case unopened =>
    intro h
    rcases mem_joinWith h with h | ⟨piece, hpiece, h⟩
    · cases h
    · exact (hpieces piece hpiece).2 h
  case unclosed =>
    intro part hpart
    obtain ⟨segment, hsegment, rfl⟩ := List.mem_map.mp hpart
    exact (hbracketed segment hsegment).unclosed

end Key

/-- The characters that need not be encoded: all but five stand for themselves, and a plus sign
stands for a space. -/
def Plain (c d : Char) : Prop :=
  d = c ∧ c ∉ ['%', '+', '&', '=', '?'] ∨ d = '+' ∧ c = ' '

instance (c d : Char) : Decidable (Plain c d) :=
  inferInstanceAs (Decidable (_ ∨ _))

/-- A leaf written as a pair: the first keys on the way to it with dots between them, at least one,
and the others in brackets. The dots and the brackets need not be encoded, like the characters of
the keys. -/
inductive WritesPair : List String × Value → List Char → Prop where
  | pair {dotted bracketed : List String} {s : String} {key value : List Char} (hne : dotted ≠ [])
    (hkey : Encodes Plain
      (joinWith '.' (dotted.map String.toList) ++ brackets (bracketed.map String.toList)) key)
    (hvalue : Encodes Plain s.toList value) :
    WritesPair (dotted ++ bracketed, .text s) (key ++ '=' :: value)

section Place

theorem leaves_text (s : String) : (Value.text s).leaves = [([], .text s)] := by
  apply Value.leaves_leaf
  intro _ he
  cases he

def placeLeaves (entries : Entries Value) (leaves : List (List String × Value)) : Entries Value :=
  leaves.foldl (fun placed leaf => place leaf.1 leaf.2.plain placed) entries

theorem place_under {path : List String} (hpath : path ≠ []) (key text : String)
    (entries : Entries Value) :
    place (key :: path) text entries =
      Entries.put entries key (.map (place path text (mapUnder entries key))) := by
  rw [place]
  exact hpath

theorem placeLeaves_under {key : String} {leaves : List (List String × Value)}
    (hpaths : ∀ leaf ∈ leaves, leaf.1 ≠ []) {before : Entries Value}
    (hkey : key ∉ Entries.keys before) (inner : Entries Value) :
    placeLeaves (before ++ [(key, .map inner)]) (leaves.map fun leaf => (key :: leaf.1, leaf.2)) =
      before ++ [(key, .map (placeLeaves inner leaves))] := by
  have hnone := Entries.get?_eq_none_of_notMem hkey
  induction leaves generalizing inner with
  | nil => rfl
  | cons leaf rest ih =>
    obtain ⟨hleaf, hrest⟩ := List.forall_mem_cons.mp hpaths
    have hunder : mapUnder (before ++ [(key, .map inner)]) key = inner := by
      rw [mapUnder, Entries.get?_append, hnone, Option.none_or, Entries.get?_cons, if_pos BEq.rfl]
    rw [List.map_cons, placeLeaves, List.foldl_cons, place_under hleaf, hunder,
      Entries.put_concat hnone]
    exact ih hrest _

/-- A value that is placed as it was: a text, or a map that is rebuilt from its leaves. -/
def Rebuilt (v : Value) : Prop :=
  (∃ s, v = .text s) ∨
    ∃ inner, v = .map inner ∧ inner ≠ [] ∧ placeLeaves [] (Value.leavesOf inner) = inner

theorem paths_leavesOf (entries : Entries Value) :
    ∀ leaf ∈ Value.leavesOf entries, leaf.1 ≠ [] := by
  intro leaf hleaf
  rw [Value.leavesOf_eq] at hleaf
  obtain ⟨e, _, hleaf⟩ := List.mem_flatMap.mp hleaf
  obtain ⟨inner, _, rfl⟩ := List.mem_map.mp hleaf
  exact List.cons_ne_nil _ _

theorem placeLeaves_entry {key : String} {v : Value} (h : Rebuilt v) {before : Entries Value}
    (hkey : key ∉ Entries.keys before) :
    placeLeaves before (v.leaves.map fun leaf => (key :: leaf.1, leaf.2)) =
      before ++ [(key, v)] := by
  have hnone := Entries.get?_eq_none_of_notMem hkey
  rcases h with ⟨s, rfl⟩ | ⟨inner, rfl, hne, hinner⟩
  · rw [leaves_text]
    exact Entries.put_of_get?_eq_none hnone _
  · rw [Value.leaves]
    have hpaths := paths_leavesOf inner
    cases hleaves : Value.leavesOf inner with
    | nil =>
      rw [hleaves] at hinner
      exact absurd hinner.symm hne
    | cons leaf rest =>
      rw [hleaves] at hinner hpaths
      obtain ⟨hleaf, hrest⟩ := List.forall_mem_cons.mp hpaths
      have hunder : mapUnder before key = [] := by rw [mapUnder, hnone]
      rw [List.map_cons, placeLeaves, List.foldl_cons, place_under hleaf, hunder,
        Entries.put_of_get?_eq_none hnone, ← placeLeaves, placeLeaves_under hrest hkey]
      rw [placeLeaves, List.foldl_cons, ← placeLeaves] at hinner
      rw [hinner]

theorem placeLeaves_append (entries : Entries Value) (leaves more : List (List String × Value)) :
    placeLeaves entries (leaves ++ more) = placeLeaves (placeLeaves entries leaves) more :=
  List.foldl_append

theorem placeLeaves_entries {before entries : Entries Value}
    (hdistinct : (Entries.keys (before ++ entries)).Nodup) (h : ∀ e ∈ entries, Rebuilt e.2) :
    placeLeaves before (Value.leavesOf entries) = before ++ entries := by
  induction entries generalizing before with
  | nil => rw [List.append_nil]; rfl
  | cons e rest ih =>
    obtain ⟨he, hrest⟩ := List.forall_mem_cons.mp h
    have hkey : e.1 ∉ Entries.keys before := by
      rw [Entries.keys, List.map_append, List.map_cons, List.nodup_append] at hdistinct
      exact fun hmem => hdistinct.2.2 e.1 hmem e.1 List.mem_cons_self rfl
    rw [Value.leavesOf, placeLeaves_append, placeLeaves_entry he hkey,
      ih (by rwa [List.append_assoc, List.singleton_append]) hrest, List.append_assoc,
      List.singleton_append]

theorem rebuilt_of_spellable {v : Value} (h : v.Spellable) : Rebuilt v := by
  induction h with
  | text s => exact .inl ⟨s, rfl⟩
  | map nonempty distinct segments values ih =>
    exact .inr ⟨_, rfl, nonempty, placeLeaves_entries distinct ih⟩

end Place

section Pair

theorem notMem_of_encodes {cs es : List Char} (h : Encodes Plain cs es) {d : Char}
    (hd : d ∈ ['&', '=', '?']) : d ∉ es := by
  simp only [List.mem_cons, List.not_mem_nil, or_false] at hd
  rcases hd with rfl | rfl | rfl <;> exact h.not_mem (by simp [Plain]) (by decide) (by decide)

theorem unquotePlus_plain {cs es : List Char} (h : Encodes Plain cs es) : unquotePlus es = cs := by
  refine unquotePlus_encodes ?_ h
  rintro c d (⟨rfl, hc⟩ | ⟨rfl, rfl⟩)
  · simp only [List.mem_cons, List.not_mem_nil, or_false, not_or] at hc
    exact ⟨hc.1, if_neg hc.2.1⟩
  · exact ⟨by decide, rfl⟩

variable {leaf : List String × Value} {pair : List Char}

theorem readPair_written (h : WritesPair leaf pair) (hsegments : ∀ key ∈ leaf.1, IsSegment key) :
    readPair pair = (leaf.1, leaf.2.plain) := by
  cases h with
  | @pair dotted bracketed s key value hne hkey hvalue =>
    have hcut : cutFirst '=' (key ++ '=' :: value) = (key, some value) :=
      cutFirst_append (notMem_of_encodes hkey (by decide)) value
    rw [readPair, hcut]
    dsimp only
    rw [unquotePlus_plain hkey, splitKey_segments hne hsegments, Option.getD_some,
      unquotePlus_plain hvalue, List.map_map, String.ofList_toList]
    simp [Value.plain, Scalar.plain]

theorem WritesPair.ne_nil (h : WritesPair leaf pair) : pair ≠ [] := by
  cases h
  exact List.append_ne_nil_of_right_ne_nil _ (List.cons_ne_nil _ _)

theorem WritesPair.notMem (h : WritesPair leaf pair) {d : Char} (hd : d ∈ ['&', '?']) :
    d ∉ pair := by
  cases h with
  | pair hne hkey hvalue =>
    have hd' : d ∈ ['&', '=', '?'] := by
      simp only [List.mem_cons, List.not_mem_nil, or_false] at hd ⊢
      exact hd.imp_right .inr
    rw [List.mem_append, List.mem_cons, not_or, not_or]
    refine ⟨notMem_of_encodes hkey hd', ?_, notMem_of_encodes hvalue hd'⟩
    rintro rfl
    exact absurd hd (by decide)

end Pair

theorem segments_of_mem_leaves {v : Value} (h : v.Spellable) {leaf : List String × Value}
    (hleaf : leaf ∈ v.leaves) : ∀ key ∈ leaf.1, IsSegment key := by
  induction h generalizing leaf with
  | text s =>
    rw [leaves_text, List.mem_singleton] at hleaf
    rw [hleaf]
    intro key hkey
    cases hkey
  | map nonempty distinct segments values ih =>
    rw [Value.leaves, Value.leavesOf_eq] at hleaf
    obtain ⟨e, he, hleaf⟩ := List.mem_flatMap.mp hleaf
    obtain ⟨inner, hinner, rfl⟩ := List.mem_map.mp hleaf
    exact List.forall_mem_cons.mpr ⟨segments e he, ih e he hinner⟩

theorem dropWhile_marks (marks : Nat) {cs : List Char} (h : cs.head? ≠ some '?') :
    (List.replicate marks '?' ++ cs).dropWhile (· = '?') = cs := by
  have hmarks : ∀ c ∈ List.replicate marks '?', decide (c = '?') = true := fun c hc =>
    decide_eq_true (List.eq_of_mem_replicate hc)
  rw [List.dropWhile_append_of_pos hmarks]
  cases cs with
  | nil => rfl
  | cons c rest => exact List.dropWhile_cons_of_neg (by simpa using h)

variable {leaves : List (List String × Value)} {written : List (List Char)}

theorem map_readPair_written (h : List.Forall₂ WritesPair leaves written)
    (hsegments : ∀ leaf ∈ leaves, ∀ key ∈ leaf.1, IsSegment key) :
    written.map readPair = leaves.map fun leaf => (leaf.1, leaf.2.plain) := by
  induction h with
  | nil => rfl
  | cons h _ ih =>
    obtain ⟨hleaf, hrest⟩ := List.forall_mem_cons.mp hsegments
    rw [List.map_cons, List.map_cons, readPair_written h hleaf, ih hrest]

/-- The pairs of a query string are those that it was written from: no text is read as one pair that
is empty, and left out. -/
theorem pairs_written (h : List.Forall₂ WritesPair leaves written)
    (hsegments : ∀ leaf ∈ leaves, ∀ key ∈ leaf.1, IsSegment key) (marks : Nat) :
    pairs (String.ofList (List.replicate marks '?' ++ joinWith '&' written)) =
      leaves.map fun leaf => (leaf.1, leaf.2.plain) := by
  have hpairs : ∀ pair ∈ written, ∃ leaf, WritesPair leaf pair := by
    intro pair hpair
    obtain ⟨leaf, _, hleaf⟩ := Outcome.exists_of_mem_right h hpair
    exact ⟨leaf, hleaf⟩
  have hmark : (joinWith '&' written).head? ≠ some '?' := by
    intro hhead
    rcases mem_joinWith (List.mem_of_head? hhead) with he | ⟨pair, hpair, hmem⟩
    · cases he
    · obtain ⟨leaf, hleaf⟩ := hpairs pair hpair
      exact hleaf.notMem (by decide) hmem
  rw [pairs, String.toList_ofList, dropWhile_marks marks hmark]
  cases written with
  | nil =>
    cases h
    rfl
  | cons first rest =>
    have hsplit : splitOn '&' (joinWith '&' (first :: rest)) = first :: rest := by
      refine splitOn_joinWith (List.cons_ne_nil _ _) fun pair hpair => ?_
      obtain ⟨leaf, hleaf⟩ := hpairs pair hpair
      exact hleaf.notMem (by decide)
    have hfilter : (first :: rest).filter (· ≠ []) = first :: rest := by
      rw [List.filter_eq_self]
      intro pair hpair
      obtain ⟨leaf, hleaf⟩ := hpairs pair hpair
      exact decide_eq_true hleaf.ne_nil
    rw [hsplit, hfilter, map_readPair_written h hsegments]

/-- A query string is read as the nested map whose leaves it was written from, in the same order at
every level, with or without question marks in front. -/
theorem parse_encoded {entries : Entries Value}
    (h : entries = [] ∨ (Value.map entries).Spellable) (marks : Nat) {written : List (List Char)}
    (hwritten : List.Forall₂ WritesPair (Value.leavesOf entries) written) :
    parse (String.ofList (List.replicate marks '?' ++ joinWith '&' written)) = entries := by
  have hsegments : ∀ leaf ∈ Value.leavesOf entries, ∀ key ∈ leaf.1, IsSegment key := by
    rcases h with rfl | h
    · intro leaf hleaf
      cases hleaf
    · intro leaf hleaf
      rw [← Value.leaves] at hleaf
      exact segments_of_mem_leaves h hleaf
  have hplaced : placeLeaves [] (Value.leavesOf entries) = entries := by
    rcases h with rfl | h
    · rfl
    · rcases rebuilt_of_spellable h with ⟨s, hs⟩ | ⟨inner, hinner, _, hplaced⟩
      · cases hs
      · cases hinner
        exact hplaced
  rw [parse, pairs_written hwritten hsegments, List.foldl_map]
  exact hplaced

theorem parse_encoded_accent :
    let entries : Entries Value :=
      [("a", .map [("b", .map [("c", .text "x é")])]), ("name", .text "")]
    let written : List (List Char) := ["a.b[c]=x+%C3%a9".toList, "name=".toList]
    (Value.map entries).Spellable ∧ List.Forall₂ WritesPair (Value.leavesOf entries) written ∧
      parse (String.ofList (List.replicate 1 '?' ++ joinWith '&' written)) = entries := by
  intro entries written
  have hspellable : (Value.map entries).Spellable := by
    have hsegment (key : String) (h : key ∈ ["a", "b", "c", "name"]) : IsSegment key := by
      simp only [List.mem_cons, List.not_mem_nil, or_false] at h
      rcases h with rfl | rfl | rfl | rfl <;>
        exact ⟨by decide, by decide, by decide, by decide⟩
    have hb : (Value.map [("b", .map [("c", .text "x é")])]).Spellable := by
      refine .map (by simp) (by decide) (by simp [hsegment]) ?_
      simp only [List.forall_mem_singleton]
      exact .map (by simp) (by decide) (by simp [hsegment]) (by simpa using .text _)
    refine .map (by simp [entries]) (by decide) (by simp [entries, hsegment]) ?_
    simpa [entries] using ⟨hb, .text ""⟩
  have hfirst : WritesPair (["a", "b", "c"], .text "x é") "a.b[c]=x+%C3%a9".toList := by
    have hkey : Encodes Plain ['a', '.', 'b', '[', 'c', ']'] ['a', '.', 'b', '[', 'c', ']'] :=
      .self (by simp [Plain])
    have haccent : Escaped (encodeChar 'é') ['%', 'C', '3', '%', 'a', '9'] :=
      .cons (.upper (by decide)) (.lower (by decide))
        (.cons (.lower (by decide)) (.lower (by decide)) .nil)
    have hvalue : Encodes Plain ['x', ' ', 'é']
        (['x', '+'] ++ ['%', 'C', '3', '%', 'a', '9'] ++ []) :=
      .plain (by decide) (.plain (by decide) (.escaped haccent .nil))
    exact @WritesPair.pair ["a", "b"] ["c"] "x é" _ _ (by simp) hkey hvalue
  have hsecond : WritesPair (["name"], .text "") "name=".toList := by
    have hkey : Encodes Plain ['n', 'a', 'm', 'e'] ['n', 'a', 'm', 'e'] := .self (by simp [Plain])
    exact @WritesPair.pair ["name"] [] "" _ _ (by simp) hkey .nil
  have hwritten : List.Forall₂ WritesPair (Value.leavesOf entries) written :=
    .cons hfirst (.cons hsecond .nil)
  exact ⟨hspellable, hwritten, parse_encoded (.inr hspellable) 1 hwritten⟩

end QueryString

end QueryPipeline
