import QueryPipeline.Proofs.Path
import QueryPipeline.Proofs.Text.Pieces

namespace QueryPipeline

namespace Path

/-- The segments of `ancestor` are a proper part of those of `path`, from the first one on. -/
def Within (ancestor path : String) : Prop :=
  segments ancestor <+: segments path ∧ segments ancestor ≠ segments path

theorem segments_injective {path other : String} (h : segments path = segments other) :
    path = other :=
  String.toList_inj.mp (Text.splitOn_injective h)

theorem within_iff {ancestor path : String} :
    Within ancestor path ↔ ∃ behind, path.toList = ancestor.toList ++ '.' :: behind := by
  constructor
  · intro h
    obtain ⟨⟨more, hmore⟩, hne⟩ := h
    have hbehind : more ≠ [] := by
      rintro rfl
      rw [List.append_nil] at hmore
      exact hne hmore
    refine ⟨Text.joinWith '.' more, ?_⟩
    calc path.toList = Text.joinWith '.' (segments ancestor ++ more) := by
          rw [hmore, segments, Text.joinWith_splitOn]
      _ = Text.joinWith '.' (segments ancestor) ++ '.' :: Text.joinWith '.' more :=
          Text.joinWith_append (Text.splitOn_ne_nil _ _) hbehind
      _ = ancestor.toList ++ '.' :: Text.joinWith '.' more := by
          rw [segments, Text.joinWith_splitOn]
  · intro h
    obtain ⟨behind, hpath⟩ := h
    have hsegments : segments path = segments ancestor ++ Text.splitOn '.' behind := by
      rw [segments, hpath, Text.splitOn_append_sep, segments]
    refine ⟨⟨_, hsegments.symm⟩, fun he => ?_⟩
    rw [he, List.self_eq_append_right] at hsegments
    exact Text.splitOn_ne_nil _ _ hsegments

theorem isWithin_iff {ancestor path : String} :
    isWithin ancestor path = true ↔ Within ancestor path := by
  rw [isWithin, List.isPrefixOf_iff_prefix, within_iff]
  constructor
  · intro h
    obtain ⟨behind, hpath⟩ := h
    exact ⟨behind, by rw [← hpath, List.append_assoc, List.singleton_append]⟩
  · intro h
    obtain ⟨behind, hpath⟩ := h
    exact ⟨behind, by rw [hpath, List.append_assoc, List.singleton_append]⟩

theorem mem_dotPrefixes_iff {before cs : List Char} :
    before ∈ dotPrefixes cs ↔ ∃ behind, cs = before ++ '.' :: behind := by
  constructor
  · exact mem_dotPrefixes
  · intro h
    obtain ⟨behind, rfl⟩ := h
    induction before with
    | nil => exact List.mem_cons_self
    | cons c before ih =>
      rw [List.cons_append, dotPrefixes]
      split
      · exact List.mem_cons_of_mem _ (List.mem_map_of_mem ih)
      · exact List.mem_map_of_mem ih

theorem mem_ancestors_iff {ancestor path : String} :
    ancestor ∈ ancestors path ↔ Within ancestor path := by
  rw [ancestors, List.mem_reverse, List.mem_map, within_iff]
  constructor
  · intro h
    obtain ⟨before, hbefore, rfl⟩ := h
    rw [String.toList_ofList]
    exact mem_dotPrefixes hbefore
  · intro h
    exact ⟨ancestor.toList, mem_dotPrefixes_iff.mpr h, String.ofList_toList⟩

theorem pairwise_dotPrefixes (cs : List Char) :
    (dotPrefixes cs).Pairwise fun a b => a.count '.' < b.count '.' := by
  induction cs with
  | nil => exact .nil
  | cons c rest ih =>
    have hmap : ((dotPrefixes rest).map (c :: ·)).Pairwise
        fun a b => a.count '.' < b.count '.' := by
      rw [List.pairwise_map]
      apply ih.imp
      intro a b hab
      rw [List.count_cons, List.count_cons]
      exact Nat.add_lt_add_right hab _
    rw [dotPrefixes]
    split
    · rename_i hc
      refine List.pairwise_cons.mpr ⟨?_, hmap⟩
      intro longer hl
      obtain ⟨before, _, rfl⟩ := List.mem_map.mp hl
      rw [hc, List.count_nil, List.count_cons_self]
      exact Nat.succ_pos _
    · exact hmap

theorem pairwise_ancestors (path : String) :
    (ancestors path).Pairwise fun a b => (segments b).length < (segments a).length := by
  rw [ancestors, List.pairwise_reverse, List.pairwise_map]
  apply (pairwise_dotPrefixes path.toList).imp
  intro a b hab
  rw [segments, segments, String.toList_ofList, String.toList_ofList, Text.length_splitOn,
    Text.length_splitOn]
  exact Nat.add_lt_add_right hab 1

end Path

namespace Schema

/-- Of the declared paths that `path` lies within, the one with the most segments. -/
structure Encloses (schema : Schema) (path ancestor : String) : Prop where
  declared : ancestor ∈ Entries.keys schema.fields
  within : Path.Within ancestor path
  longest : ∀ other ∈ Entries.keys schema.fields, Path.Within other path →
    (Path.segments other).length ≤ (Path.segments ancestor).length

variable {schema : Schema} {path : String}

theorem Encloses.unique {ancestor other : String} (h : schema.Encloses path ancestor)
    (h' : schema.Encloses path other) : ancestor = other := by
  have hlength := Nat.le_antisymm (h'.longest _ h.declared h.within)
    (h.longest _ h'.declared h'.within)
  apply Path.segments_injective
  exact (List.prefix_of_prefix_length_le h.within.1 h'.within.1 hlength.le).eq_of_length hlength

/-- Going up from a path, the first declared path is the one that encloses it. -/
theorem encloses_of_find? {ancestor : String}
    (h : (Path.ancestors path).find? schema.declares = some ancestor) :
    schema.Encloses path ancestor := by
  obtain ⟨hdeclared, before, after, hsplit, hbefore⟩ := List.find?_eq_some_iff_append.mp h
  have hordered := Path.pairwise_ancestors path
  rw [hsplit] at hordered
  obtain ⟨_, hfrom, _⟩ := List.pairwise_append.mp hordered
  refine ⟨declares_iff.mp hdeclared, Path.mem_ancestors_iff.mp (List.mem_of_find?_eq_some h), ?_⟩
  intro other hother hwithin
  have hmem := Path.mem_ancestors_iff.mpr hwithin
  rw [hsplit, List.mem_append, List.mem_cons] at hmem
  rcases hmem with hmem | rfl | hmem
  · have hundeclared := hbefore other hmem
    rw [declares_iff.mpr hother] at hundeclared
    cases hundeclared
  · exact Nat.le_refl _
  · exact ((List.pairwise_cons.mp hfrom).1 other hmem).le

theorem find?_ancestors_eq_some_iff {ancestor : String} :
    (Path.ancestors path).find? schema.declares = some ancestor ↔
      schema.Encloses path ancestor := by
  constructor
  · exact encloses_of_find?
  · intro h
    have hsome : ((Path.ancestors path).find? schema.declares).isSome = true :=
      List.find?_isSome.mpr
        ⟨ancestor, Path.mem_ancestors_iff.mpr h.within, declares_iff.mpr h.declared⟩
    obtain ⟨first, hfirst⟩ := Option.isSome_iff_exists.mp hsome
    rw [hfirst, (encloses_of_find? hfirst).unique h]

theorem withinMixed_iff : schema.withinMixed path = true ↔
    ∃ ancestor, schema.Encloses path ancestor ∧ schema.declaredType? ancestor = some .mixed := by
  simp only [← find?_ancestors_eq_some_iff]
  rw [withinMixed]
  cases (Path.ancestors path).find? schema.declares with
  | none => simp
  | some ancestor => simp

/-- A path is known when it is declared or translatable, when a declared path lies within it, or
when the declared path that encloses it is mixed. -/
theorem hasField_iff : schema.hasField path = true ↔
    path ∈ Entries.keys schema.fields ∨ .text path ∈ schema.translatable ∨
      (∃ declared ∈ Entries.keys schema.fields, Path.Within path declared) ∨
      ∃ ancestor, schema.Encloses path ancestor ∧
        schema.declaredType? ancestor = some .mixed := by
  rw [hasField, Bool.or_eq_true, Bool.or_eq_true, Bool.or_eq_true, declares_iff,
    isTranslatable_iff, List.any_eq_true, withinMixed_iff]
  simp only [Path.isWithin_iff, or_assoc]

/-- Below a mixed field all is known, but not below a field of another type that it holds. -/
example :
    let schema : Schema :=
      { origin := .mapping, modelName := none,
        fields := [("meta", { type := .mixed }), ("meta.size", { type := .string })],
        translatable := [], collection := none }
    schema.hasField "meta.color.red" = true ∧ schema.hasField "meta.size.unit" = false ∧
      schema.hasField "metadata" = false := by
  decide

end Schema

end QueryPipeline
