import QueryPipeline.Text.Blank

namespace QueryPipeline.Text

/-- Neither the first character nor the last one is a blank. -/
structure Bare (cs : List Char) : Prop where
  first : ∀ c ∈ cs.head?, isBlank c = false
  last : ∀ c ∈ cs.getLast?, isBlank c = false

variable {cs : List Char}

theorem dropWhile_eq_self {p : Char → Bool} (h : ∀ c ∈ cs.head?, p c = false) :
    cs.dropWhile p = cs := by
  cases cs with
  | nil => rfl
  | cons c rest => rw [List.dropWhile_cons, h c rfl, if_neg Bool.false_ne_true]

theorem Bare.strip_eq (h : Bare cs) : strip cs = cs := by
  have hlast : ∀ c ∈ cs.reverse.head?, isBlank c = false := by
    rw [List.head?_reverse]
    exact h.last
  rw [strip, trimBoth, dropWhile_eq_self h.first, dropWhile_eq_self hlast, List.reverse_reverse]

theorem strip_cons_of_isBlank {c : Char} (h : isBlank c = true) (cs : List Char) :
    strip (c :: cs) = strip cs := by
  rw [strip, trimBoth, List.dropWhile_cons_of_pos h, strip, trimBoth]

theorem Bare.of_forall (h : ∀ c ∈ cs, isBlank c = false) : Bare cs where
  first c hc := h c (List.mem_of_mem_head? hc)
  last c hc := h c (List.mem_of_getLast? hc)

theorem Bare.cons {c : Char} (hc : isBlank c = false) (hne : cs ≠ []) (h : Bare cs) :
    Bare (c :: cs) where
  first d hd := by
    cases hd
    exact hc
  last d hd := by
    obtain ⟨e, rest, rfl⟩ := List.exists_cons_of_ne_nil hne
    rw [List.getLast?_cons_cons] at hd
    exact h.last d hd

end QueryPipeline.Text
