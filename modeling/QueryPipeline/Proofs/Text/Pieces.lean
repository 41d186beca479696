import QueryPipeline.Text.Pieces

namespace QueryPipeline.Text

variable {sep : Char}

theorem splitOn_of_not_mem {piece : List Char} (h : sep ∉ piece) : splitOn sep piece = [piece] := by
  induction piece with
  | nil => rfl
  | cons c rest ih =>
    rw [List.mem_cons, not_or] at h
    rw [splitOn, if_neg (Ne.symm h.1), ih h.2]

theorem splitOn_append_sep (before behind : List Char) :
    splitOn sep (before ++ sep :: behind) = splitOn sep before ++ splitOn sep behind := by
  induction before with
  | nil => simp only [List.nil_append, splitOn, ↓reduceIte, List.singleton_append]
  | cons c before ih =>
    rw [List.cons_append, splitOn, ih, splitOn]
    split
    · rw [List.cons_append]
    · cases hs : splitOn sep before with
      | nil => exact absurd hs (splitOn_ne_nil sep before)
      | cons piece pieces => rfl

theorem splitOn_append {piece : List Char} (h : sep ∉ piece) (rest : List Char) :
    splitOn sep (piece ++ sep :: rest) = piece :: splitOn sep rest := by
  rw [splitOn_append_sep, splitOn_of_not_mem h, List.singleton_append]

theorem splitOn_injective {cs ds : List Char} (h : splitOn sep cs = splitOn sep ds) : cs = ds := by
  rw [← joinWith_splitOn sep cs, h, joinWith_splitOn]

theorem length_splitOn (cs : List Char) : (splitOn sep cs).length = cs.count sep + 1 := by
  induction cs with
  | nil => rfl
  | cons c rest ih =>
    rw [splitOn]
    split
    · rename_i hc
      rw [hc, List.length_cons, ih, List.count_cons_self]
    · rename_i hc
      rw [List.count_cons_of_ne hc, ← ih]
      cases hs : splitOn sep rest with
      | nil => exact absurd hs (splitOn_ne_nil sep rest)
      | cons piece pieces => rfl

theorem joinWith_append {pieces more : List (List Char)} (h : pieces ≠ []) (hmore : more ≠ []) :
    joinWith sep (pieces ++ more) = joinWith sep pieces ++ sep :: joinWith sep more := by
  induction pieces with
  | nil => exact absurd rfl h
  | cons piece rest ih =>
    cases rest with
    | nil =>
      cases more with
      | nil => exact absurd rfl hmore
      | cons next more => rfl
    | cons next rest =>
      have hnext := ih (List.cons_ne_nil next rest)
      rw [List.cons_append] at hnext
      rw [List.cons_append, List.cons_append, joinWith, joinWith, hnext, List.append_assoc,
        List.cons_append]

/-- No pieces at all are read as one that is empty. -/
theorem splitOn_joinWith {pieces : List (List Char)} (hpieces : pieces ≠ [])
    (h : ∀ piece ∈ pieces, sep ∉ piece) : splitOn sep (joinWith sep pieces) = pieces := by
  induction pieces with
  | nil => exact absurd rfl hpieces
  | cons piece rest ih =>
    obtain ⟨hpiece, hrest⟩ := List.forall_mem_cons.mp h
    cases rest with
    | nil => rw [joinWith, splitOn_of_not_mem hpiece]
    | cons next rest =>
      rw [joinWith, splitOn_append hpiece, ih (List.cons_ne_nil _ _) hrest]

theorem mem_joinWith {pieces : List (List Char)} {c : Char} (h : c ∈ joinWith sep pieces) :
    c = sep ∨ ∃ piece ∈ pieces, c ∈ piece := by
  induction pieces with
  | nil => cases h
  | cons piece rest ih =>
    cases rest with
    | nil => exact .inr ⟨piece, List.mem_cons_self, h⟩
    | cons next rest =>
      rw [joinWith, List.mem_append, List.mem_cons] at h
      rcases h with h | h | h
      · exact .inr ⟨piece, List.mem_cons_self, h⟩
      · exact .inl h
      · rcases ih h with h | ⟨piece, hpiece, hc⟩
        · exact .inl h
        · exact .inr ⟨piece, List.mem_cons_of_mem _ hpiece, hc⟩

theorem mem_joinWith_of_mem {pieces : List (List Char)} {piece : List Char}
    (hpiece : piece ∈ pieces) {c : Char} (hc : c ∈ piece) : c ∈ joinWith sep pieces := by
  induction pieces with
  | nil => cases hpiece
  | cons first rest ih =>
    cases rest with
    | nil =>
      rw [List.mem_singleton.mp hpiece] at hc
      exact hc
    | cons next rest =>
      rw [joinWith, List.mem_append, List.mem_cons]
      rcases List.mem_cons.mp hpiece with rfl | hpiece
      · exact .inl hc
      · exact .inr (.inr (ih hpiece))

theorem mem_of_mem_splitOn {cs piece : List Char} (hpiece : piece ∈ splitOn sep cs) {c : Char}
    (hc : c ∈ piece) : c ∈ cs := by
  rw [← joinWith_splitOn sep cs]
  exact mem_joinWith_of_mem hpiece hc

theorem not_mem_of_mem_splitOn {cs piece : List Char} (hpiece : piece ∈ splitOn sep cs) :
    sep ∉ piece := by
  induction cs generalizing piece with
  | nil =>
    rw [List.mem_singleton.mp hpiece]
    exact List.not_mem_nil
  | cons c rest ih =>
    rw [splitOn] at hpiece
    split at hpiece
    · rcases List.mem_cons.mp hpiece with rfl | hpiece
      · exact List.not_mem_nil
      · exact ih hpiece
    · rename_i hc
      cases hs : splitOn sep rest with
      | nil => exact absurd hs (splitOn_ne_nil sep rest)
      | cons first pieces =>
        rw [hs] at hpiece ih
        rcases List.mem_cons.mp hpiece with rfl | hpiece
        · rw [List.mem_cons, not_or]
          exact ⟨Ne.symm hc, ih List.mem_cons_self⟩
        · exact ih (List.mem_cons_of_mem _ hpiece)

theorem cutFirst_eq (cs : List Char) :
    (cutFirst sep cs).1 = cs.takeWhile (· ≠ sep) ∧
      (cutFirst sep cs).2.getD [] = (cs.dropWhile (· ≠ sep)).tail := by
  induction cs with
  | nil => exact ⟨rfl, rfl⟩
  | cons c rest ih =>
    by_cases hc : c = sep
    · simp [cutFirst, hc]
    · simp [cutFirst, hc, ih]

theorem cutFirst_append {before : List Char} (h : sep ∉ before) (behind : List Char) :
    cutFirst sep (before ++ sep :: behind) = (before, some behind) := by
  induction before with
  | nil => rw [List.nil_append, cutFirst, if_pos rfl]
  | cons c rest ih =>
    rw [List.mem_cons, not_or] at h
    rw [List.cons_append, cutFirst, if_neg (Ne.symm h.1), ih h.2]

end QueryPipeline.Text
