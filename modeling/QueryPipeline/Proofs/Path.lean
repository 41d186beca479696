import QueryPipeline.Proofs.Value.Equality
import QueryPipeline.Proofs.Entries
import QueryPipeline.Schema.Basic

namespace QueryPipeline

namespace Path

def segments (path : String) : List (List Char) :=
  Text.splitOn '.' path.toList

def leading (cs : List Char) : List Char :=
  cs.takeWhile fun c => c ≠ '.'

theorem leading_dot (cs : List Char) : leading ('.' :: cs) = [] := rfl

theorem leading_cons {c : Char} (hc : c ≠ '.') (cs : List Char) :
    leading (c :: cs) = c :: leading cs := by
  rw [leading, List.takeWhile_cons, if_pos (decide_eq_true hc), leading]

theorem leading_append_dot (before behind : List Char) :
    leading (before ++ '.' :: behind) = leading before := by
  induction before with
  | nil => rfl
  | cons c before ih =>
    by_cases hc : c = '.'
    · rw [hc, List.cons_append, leading_dot, leading_dot]
    · rw [List.cons_append, leading_cons hc, leading_cons hc, ih]

theorem head?_segments (path : String) :
    (segments path).head? = some (leading path.toList) := by
  rw [segments]
  induction path.toList with
  | nil => rfl
  | cons c cs ih =>
    by_cases hc : c = '.'
    · rw [hc, leading_dot, Text.splitOn, if_pos rfl, List.head?_cons]
    · rw [leading_cons hc, Text.splitOn, if_neg hc]
      cases hs : Text.splitOn '.' cs with
      | nil => exact absurd hs (Text.splitOn_ne_nil '.' cs)
      | cons piece pieces =>
        rw [hs] at ih
        rw [Option.some.inj ih]
        rfl

theorem toList_under (parent child : String) :
    (under parent child).toList = parent.toList ++ '.' :: child.toList := by
  rw [under, String.toList_append, String.toList_append, List.append_assoc]
  rfl

/-- A dot is no part of an arrow, so the arrows before it and behind it are read by themselves. -/
theorem arrowsToDots_append_dot (before behind : List Char) :
    arrowsToDots (before ++ '.' :: behind) = arrowsToDots before ++ '.' :: arrowsToDots behind := by
  induction before using arrowsToDots.induct with
  | case1 rest ih => simp only [List.cons_append, arrowsToDots, ih]
  | case2 c rest hc ih =>
    have hc' : ∀ tail, c = '-' → rest ++ '.' :: behind = '>' :: tail → False := by
      intro tail hd ht
      cases rest with
      | nil => cases ht
      | cons d rest =>
        cases ht
        exact hc _ hd rfl
    rw [List.cons_append, arrowsToDots, arrowsToDots, ih, List.cons_append]
    · exact hc
    · exact hc'
  | case3 => rfl

theorem leading_arrowsToDots (cs : List Char) :
    leading (arrowsToDots cs) = leading (beforeArrow cs) := by
  induction cs using arrowsToDots.induct with
  | case1 rest ih => rfl
  | case2 c rest hc ih =>
    rw [arrowsToDots, beforeArrow]
    · by_cases hd : c = '.'
      · rw [hd, leading_dot, leading_dot]
      · rw [leading_cons hd, leading_cons hd, ih]
    · exact hc
    · exact hc
  | case3 => rfl

theorem dotted_under (parent child : String) :
    dotted (under parent child) = under (dotted parent) (dotted child) := by
  rw [← String.toList_inj, toList_under]
  simp only [dotted, String.toList_ofList]
  rw [toList_under, arrowsToDots_append_dot]

theorem leading_dotted_under (parent child : String) :
    leading (dotted (under parent child)).toList = leading (dotted parent).toList := by
  rw [dotted_under, toList_under, leading_append_dot]

theorem leading_root (path : String) :
    leading (root path).toList = leading (dotted path).toList := by
  simp only [root, dotted, String.toList_ofList]
  exact (leading_arrowsToDots path.toList).symm

end Path

namespace Text

theorem cutLast?_eq_some {sep : Char} {cs before behind : List Char}
    (h : cutLast? sep cs = some (before, behind)) : cs = before ++ sep :: behind := by
  induction cs generalizing before behind with
  | nil => cases h
  | cons c cs ih =>
    rw [cutLast?] at h
    split at h
    · rename_i hcut
      cases h
      rw [ih hcut, List.cons_append]
    · split at h
      · rename_i hc
        cases h
        rw [hc, List.nil_append]
      · cases h

theorem cutLast?_eq_none {sep : Char} {cs : List Char} (h : sep ∉ cs) : cutLast? sep cs = none := by
  induction cs with
  | nil => rfl
  | cons c cs ih =>
    rw [List.mem_cons, not_or] at h
    rw [cutLast?, ih h.2]
    exact if_neg fun hc => h.1 hc.symm

theorem cutLast?_append {sep : Char} (before : List Char) {behind : List Char} (h : sep ∉ behind) :
    cutLast? sep (before ++ sep :: behind) = some (before, behind) := by
  induction before with
  | nil =>
    rw [List.nil_append, cutLast?, cutLast?_eq_none h]
    exact if_pos rfl
  | cons c before ih => rw [List.cons_append, cutLast?, ih]

end Text

namespace Path

theorem splitLast?_eq_some {path field suffix : String}
    (h : splitLast? path = some (field, suffix)) : path = under field suffix := by
  unfold splitLast? at h
  split at h
  · rename_i before behind hcut
    split at h
    · cases h
    · cases h
      rw [← String.toList_inj, toList_under, String.toList_ofList, String.toList_ofList]
      exact Text.cutLast?_eq_some hcut
  · cases h

theorem splitLast?_under {field suffix : String} (hfield : field ≠ "")
    (hsuffix : '.' ∉ suffix.toList) : splitLast? (under field suffix) = some (field, suffix) := by
  have hne : field.toList ≠ [] := fun h => hfield (String.toList_eq_nil_iff.mp h)
  rw [splitLast?, toList_under, Text.cutLast?_append _ hsuffix]
  simp [hne]

theorem mem_dotPrefixes {before cs : List Char} (h : before ∈ dotPrefixes cs) :
    ∃ behind, cs = before ++ '.' :: behind := by
  induction cs generalizing before with
  | nil => cases h
  | cons c cs ih =>
    have htail (h : before ∈ (dotPrefixes cs).map (c :: ·)) :
        ∃ behind, c :: cs = before ++ '.' :: behind := by
      obtain ⟨before, hb, rfl⟩ := List.mem_map.mp h
      obtain ⟨behind, rfl⟩ := ih hb
      exact ⟨behind, rfl⟩
    rw [dotPrefixes] at h
    split at h
    · rename_i hc
      rcases List.mem_cons.mp h with rfl | h
      · exact ⟨cs, by rw [hc, List.nil_append]⟩
      · exact htail h
    · exact htail h

theorem leading_of_mem_ancestors {path ancestor : String} (h : ancestor ∈ ancestors path) :
    leading ancestor.toList = leading path.toList := by
  rw [ancestors, List.mem_reverse] at h
  obtain ⟨before, hb, rfl⟩ := List.mem_map.mp h
  obtain ⟨behind, hp⟩ := mem_dotPrefixes hb
  rw [hp, leading_append_dot, String.toList_ofList]

theorem leading_of_isWithin {path descendant : String} (h : isWithin path descendant = true) :
    leading descendant.toList = leading path.toList := by
  obtain ⟨behind, hd⟩ := List.isPrefixOf_iff_prefix.mp h
  rw [← hd, List.append_assoc, List.singleton_append, leading_append_dot]

end Path

namespace Schema

variable {schema : Schema}

def Names (schema : Schema) (path : String) : Prop :=
  path ∈ Entries.keys schema.fields ∨ .text path ∈ schema.translatable

theorem declares_iff {path : String} :
    schema.declares path = true ↔ path ∈ Entries.keys schema.fields :=
  Entries.mem_keys_iff.symm

theorem isTranslatable_iff {path : String} :
    schema.isTranslatable path = true ↔ .text path ∈ schema.translatable := by
  rw [isTranslatable, List.contains_iff_exists_mem_beq]
  constructor
  · intro h
    obtain ⟨s, hs, hbeq⟩ := h
    exact Scalar.beq_text_iff.mp (BEq.symm hbeq) ▸ hs
  · intro h
    exact ⟨_, h, Scalar.beq_text_iff.mpr rfl⟩

/-- A path that a schema knows begins like one that it names. -/
theorem exists_names_of_hasField {path : String} (h : schema.hasField path = true) :
    ∃ named, schema.Names named ∧ Path.leading named.toList = Path.leading path.toList := by
  rw [hasField, Bool.or_eq_true, Bool.or_eq_true, Bool.or_eq_true] at h
  rcases h with ((h | h) | h) | h
  · exact ⟨path, .inl (declares_iff.mp h), rfl⟩
  · exact ⟨path, .inr (isTranslatable_iff.mp h), rfl⟩
  · obtain ⟨key, hk, hw⟩ := List.any_eq_true.mp h
    exact ⟨key, .inl hk, Path.leading_of_isWithin hw⟩
  · unfold withinMixed at h
    split at h
    · rename_i ancestor ha
      exact ⟨ancestor, .inl (declares_iff.mp (List.find?_some ha)),
        Path.leading_of_mem_ancestors (List.mem_of_find?_eq_some ha)⟩
    · cases h

end Schema

end QueryPipeline
