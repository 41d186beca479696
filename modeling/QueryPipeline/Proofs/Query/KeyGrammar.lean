import QueryPipeline.Proofs.Query.Encoding

namespace QueryPipeline.QueryString

open Text

/-- A key in its notation. -/
structure Spells (head : List Char) (parts : List (List Char)) (key : List Char) : Prop where
  nonempty : head ≠ []
  unopened : '[' ∉ head
  unclosed : ∀ part ∈ parts, ']' ∉ part
  written : key = head ++ brackets parts

/-- A key in its notation, with some part in brackets and a segment that is not empty, and a line
end behind it. -/
structure SpellsLine (head : List Char) (parts : List (List Char)) (key : List Char) : Prop where
  bracketed : parts ≠ []
  segmented : segmentsOf head parts ≠ []
  ended : ∃ line, Spells head parts line ∧ key = line ++ ['\n']

variable {head key : List Char} {parts : List (List Char)}

section Brackets

theorem brackets_cons (part : List Char) (rest : List (List Char)) :
    brackets (part :: rest) = '[' :: (part ++ ']' :: brackets rest) := by
  simp [brackets]

def IsEnding (cs : List Char) : Prop :=
  cs = [] ∨ cs = ['\n']

theorem IsEnding.bracketed? {cs : List Char} (h : IsEnding cs) : bracketed? none cs = some [] := by
  rcases h with rfl | rfl
  · rfl
  · rfl

theorem eq_brackets_of_bracketed? (cs : List Char) :
    (∀ parts, bracketed? none cs = some parts → (∀ part ∈ parts, ']' ∉ part) ∧
      ∃ ending, IsEnding ending ∧ cs = brackets parts ++ ending) ∧
    ∀ inside parts, bracketed? (some inside) cs = some parts →
      ∃ part rest, parts = (inside.reverse ++ part) :: rest ∧ ']' ∉ part ∧
        (∀ part ∈ rest, ']' ∉ part) ∧
        ∃ ending, IsEnding ending ∧ cs = part ++ ']' :: (brackets rest ++ ending) := by
  induction cs with
  | nil =>
    constructor
    · intro parts h
      cases h
      exact ⟨List.forall_mem_nil _, [], .inl rfl, rfl⟩
    · intro inside parts h
      cases h
  | cons c cs ih =>
    obtain ⟨hclosed, hinside⟩ := ih
    constructor
    · intro parts h
      rw [bracketed?] at h
      split at h
      · rename_i hc
        obtain ⟨part, rest, rfl, hpart, hrest, ending, hending, rfl⟩ := hinside [] parts h
        refine ⟨List.forall_mem_cons.mpr ⟨hpart, hrest⟩, ending, hending, ?_⟩
        rw [hc, List.reverse_nil, List.nil_append, brackets_cons, List.cons_append,
          List.append_assoc, List.cons_append]
      · split at h
        · rename_i hline
          obtain ⟨rfl, rfl⟩ := hline
          cases h
          exact ⟨List.forall_mem_nil _, ['\n'], .inr rfl, rfl⟩
        · cases h
    · intro inside parts h
      rw [bracketed?] at h
      split at h
      · rename_i hc
        obtain ⟨rest, hrest, rfl⟩ := Option.map_eq_some_iff.mp h
        obtain ⟨hunclosed, ending, hending, rfl⟩ := hclosed rest hrest
        refine ⟨[], rest, ?_, List.not_mem_nil, hunclosed, ending, hending, ?_⟩
        · rw [List.append_nil]
        · rw [hc, List.nil_append]
      · rename_i hc
        obtain ⟨part, rest, rfl, hpart, hrest, ending, hending, rfl⟩ := hinside _ parts h
        refine ⟨c :: part, rest, ?_, ?_, hrest, ending, hending, ?_⟩
        · rw [List.reverse_cons, List.append_assoc, List.singleton_append]
        · rw [List.mem_cons, not_or]
          exact ⟨Ne.symm hc, hpart⟩
        · rw [List.cons_append]

/-- The bracketed parts of a key are read just when they are closed, and nothing but a line end
stands behind them. -/
theorem bracketed?_eq_some_iff {cs : List Char} :
    bracketed? none cs = some parts ↔
      (∀ part ∈ parts, ']' ∉ part) ∧ ∃ ending, IsEnding ending ∧ cs = brackets parts ++ ending := by
  constructor
  · exact (eq_brackets_of_bracketed? cs).1 parts
  · intro h
    obtain ⟨hparts, ending, hending, rfl⟩ := h
    exact bracketed?_brackets_append hparts hending.bracketed?

end Brackets

section Spells

theorem Spells.splitKey (h : Spells head parts key) :
    splitKey key = if segmentsOf head parts = [] then [key] else segmentsOf head parts := by
  rw [h.written]
  exact splitKey_append_brackets h.nonempty h.unopened h.unclosed

theorem mem_brackets (hparts : parts ≠ []) : '[' ∈ brackets parts ∧ ']' ∈ brackets parts := by
  cases parts with
  | nil => exact absurd rfl hparts
  | cons part rest => simp [brackets_cons]

theorem getLast?_brackets (hparts : parts ≠ []) : (brackets parts).getLast? = some ']' := by
  induction parts with
  | nil => exact absurd rfl hparts
  | cons part rest ih =>
    rw [brackets_cons, List.getLast?_cons, List.getLast?_append, List.getLast?_cons]
    cases rest with
    | nil => rfl
    | cons next rest =>
      rw [ih (List.cons_ne_nil _ _)]
      rfl

theorem not_mem_segmentsOf (hunopened : '[' ∉ head) (hunclosed : ∀ part ∈ parts, ']' ∉ part)
    (hopen : '[' ∈ key) (hclose : ']' ∈ key) : key ∉ segmentsOf head parts := by
  intro hkey
  rcases List.mem_append.mp (List.mem_filter.mp hkey).1 with hpiece | hpart
  · exact hunopened (mem_of_mem_splitOn hpiece hopen)
  · exact hunclosed key hpart hclose

theorem SpellsLine.mem_brackets (h : SpellsLine head parts key) : '[' ∈ key ∧ ']' ∈ key := by
  obtain ⟨hbracketed, _, line, hline, rfl⟩ := h
  obtain ⟨hopen, hclose⟩ := QueryString.mem_brackets hbracketed
  rw [hline.written]
  exact ⟨List.mem_append_left _ (List.mem_append_right _ hopen),
    List.mem_append_left _ (List.mem_append_right _ hclose)⟩

theorem SpellsLine.not_spells (h : SpellsLine head parts key) {head' : List Char}
    {parts' : List (List Char)} : ¬ Spells head' parts' key := by
  intro hspells
  have hopen := h.mem_brackets.1
  obtain ⟨_, _, line, _, hkey⟩ := h
  have hwritten := hspells.written
  cases parts' with
  | nil =>
    rw [hwritten, List.mem_append] at hopen
    exact hopen.elim hspells.unopened List.not_mem_nil
  | cons part rest =>
    have hlast : key.getLast? = some ']' := by
      rw [hwritten, List.getLast?_append, getLast?_brackets (List.cons_ne_nil _ _)]
      rfl
    rw [hkey, List.getLast?_concat] at hlast
    cases hlast

theorem SpellsLine.splitKey (h : SpellsLine head parts key) :
    splitKey key = segmentsOf head parts ∧ splitKey key ≠ [key] := by
  obtain ⟨hopen, hclose⟩ := h.mem_brackets
  obtain ⟨hbracketed, hsegmented, line, hline, rfl⟩ := h
  have hfirst : ∃ more, brackets parts ++ ['\n'] = '[' :: more := by
    cases parts with
    | nil => exact absurd rfl hbracketed
    | cons part rest => exact ⟨_, rfl⟩
  have hread := bracketed?_brackets_append hline.unclosed (IsEnding.bracketed? (.inr rfl))
  have hsplit : splitKey (line ++ ['\n']) = segmentsOf head parts := by
    rw [hline.written, List.append_assoc,
      splitKey_append hline.nonempty hline.unopened (.inr hfirst) hread, if_neg hsegmented]
  refine ⟨hsplit, fun hwhole => ?_⟩
  have hmem : line ++ ['\n'] ∈ segmentsOf head parts := by
    rw [← hsplit, hwhole]
    exact List.mem_singleton_self _
  exact not_mem_segmentsOf hline.unopened hline.unclosed hopen hclose hmem

end Spells

theorem spells_of_splitKey (h : splitKey key ≠ [key]) :
    ∃ head parts, Spells head parts key ∨ SpellsLine head parts key := by
  have hkey := List.takeWhile_append_dropWhile (p := (· ≠ '[')) (l := key)
  have hunopened : '[' ∉ key.takeWhile (· ≠ '[') := by
    intro hmem
    exact absurd (List.mem_takeWhile_imp hmem) (by simp)
  rw [QueryString.splitKey] at h
  split at h
  · exact absurd rfl h
  · rename_i parts hread
    split at h
    · exact absurd rfl h
    · rename_i hne
      obtain ⟨hunclosed, ending, hending, hdrop⟩ := bracketed?_eq_some_iff.mp hread
      rw [hdrop] at hkey
      refine ⟨key.takeWhile (· ≠ '['), parts, ?_⟩
      rcases hending with rfl | rfl
      · rw [List.append_nil] at hkey
        exact .inl ⟨hne, hunopened, hunclosed, hkey.symm⟩
      · have hbracketed : parts ≠ [] := by
          -- The text behind the head begins with a bracket, not with the line end.
          rintro rfl
          have hhead := List.head?_dropWhile_not (· ≠ '[') key
          rw [hdrop] at hhead
          cases hhead
        have hsegmented : segmentsOf (key.takeWhile (· ≠ '[')) parts ≠ [] := fun hnil =>
          h (if_pos hnil)
        rw [← List.append_assoc] at hkey
        exact .inr ⟨hbracketed, hsegmented, _, ⟨hne, hunopened, hunclosed, rfl⟩, hkey.symm⟩

/-- A key in its notation is cut into its segments. A key that is not is kept whole, just when it is
no such key with a line end behind its brackets. -/
theorem splitKey_whole_iff (key : List Char) :
    (∀ head parts, Spells head parts key →
      splitKey key = if segmentsOf head parts = [] then [key] else segmentsOf head parts) ∧
    ((∀ head parts, ¬ Spells head parts key) →
      (splitKey key = [key] ↔ ∀ head parts, ¬ SpellsLine head parts key)) ∧
    ∀ head parts, SpellsLine head parts key → splitKey key = segmentsOf head parts := by
  refine ⟨fun head parts h => h.splitKey, ?_, fun head parts h => h.splitKey.1⟩
  intro hnone
  constructor
  · intro hwhole head parts h
    exact h.splitKey.2 hwhole
  · intro hline
    by_contra hcut
    obtain ⟨head, parts, h | h⟩ := spells_of_splitKey hcut
    · exact hnone head parts h
    · exact hline head parts h

/-- The key `a[b]` with a line end behind it is in no notation, and is not kept whole. -/
theorem splitKey_line_end :
    let key := "a[b]\n".toList
    (∀ head parts, ¬ Spells head parts key) ∧ splitKey key = [['a'], ['b']] ∧
      splitKey key ≠ [key] := by
  intro key
  have hline : SpellsLine ['a'] [['b']] key :=
    ⟨by decide, by decide, "a[b]".toList, ⟨by decide, by decide, by decide, rfl⟩, rfl⟩
  exact ⟨fun _ _ => hline.not_spells, hline.splitKey⟩

end QueryPipeline.QueryString
