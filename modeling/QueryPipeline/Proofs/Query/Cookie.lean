import QueryPipeline.Proofs.Outcome
import QueryPipeline.Proofs.Text.Blank
import QueryPipeline.Proofs.Text.Percent
import QueryPipeline.Proofs.Text.Pieces
import QueryPipeline.Query.Cookie

namespace QueryPipeline.Cookie

open Text

/-- A cookie, under a name that needs no encoding. -/
structure Named where
  name : String
  value : String
  nonempty : name ≠ ""
  unseparated : ';' ∉ name.toList
  unassigned : '=' ∉ name.toList
  unspaced : ∀ c ∈ name.toList, isBlank c = false

/-- The characters that need not be encoded in a value. -/
def Plain (c d : Char) : Prop :=
  d = c ∧ d ≠ '%' ∧ d ≠ ';' ∧ isBlank d = false

inductive Named.Writes (cookie : Named) : List Char → Prop where
  | pair {value : List Char} (encoded : Encodes Plain cookie.value.toList value) :
    Writes cookie (cookie.name.toList ++ '=' :: value)

def headerOf (written : List (List Char)) : String :=
  String.ofList ([';', ' '].intercalate written)

section Pair

theorem isBlank_of_hexValue? {c : Char} (h : (hexValue? c).isSome = true) : isBlank c = false := by
  have hdigit : 48 ≤ c.toNat ∧ c.toNat ≤ 102 := by
    rw [hexValue?] at h
    simp only [Char.le_def, UInt32.le_iff_toNat_le] at h
    split at h
    · rename_i hc
      change 48 ≤ c.toNat ∧ c.toNat ≤ 57 at hc
      omega
    · split at h
      · rename_i hc
        change 97 ≤ c.toNat ∧ c.toNat ≤ 102 at hc
        omega
      · split at h
        · rename_i hc
          change 65 ≤ c.toNat ∧ c.toNat ≤ 70 at hc
          omega
        · cases h
  have hranges : ∀ range ∈ blankRanges, range.2 < 48 ∨ 102 < range.1 := by decide
  rw [isBlank, List.any_eq_false]
  intro range hrange
  have houtside := hranges range hrange
  rw [Bool.and_eq_true, decide_eq_true_eq, decide_eq_true_eq]
  omega

theorem isBlank_of_encodes {cs es : List Char} (h : Encodes Plain cs es) {d : Char} (hd : d ∈ es) :
    isBlank d = false := by
  induction h with
  | nil => cases hd
  | plain hplain rest ih =>
    rcases List.mem_cons.mp hd with rfl | hd
    · exact hplain.2.2.2
    · exact ih hd
  | escaped hescaped rest ih =>
    rcases List.mem_append.mp hd with hd | hd
    · rcases hescaped.of_mem hd with rfl | hd
      · decide
      · exact isBlank_of_hexValue? hd
    · exact ih hd

variable {cookie : Named} {pair : List Char}

theorem Named.Writes.notMem (h : cookie.Writes pair) : ';' ∉ pair := by
  cases h with
  | pair encoded =>
    have hvalue := encoded.not_mem (d := ';') (fun c hc => hc.2.2.1 rfl) (by decide) (by decide)
    rw [List.mem_append, List.mem_cons, not_or, not_or]
    exact ⟨cookie.unseparated, by decide, hvalue⟩

theorem Named.Writes.bare (h : cookie.Writes pair) : Bare pair := by
  cases h with
  | pair encoded =>
    apply Bare.of_forall
    intro c hc
    rw [List.mem_append, List.mem_cons] at hc
    rcases hc with hc | rfl | hc
    · exact cookie.unspaced c hc
    · decide
    · exact isBlank_of_encodes encoded hc

theorem readPair?_written (h : cookie.Writes pair) :
    ∃ value, readPair? pair = some (cookie.name.toList, value) ∧
      unquote value = cookie.value.toList := by
  have hstrip := h.bare.strip_eq
  cases h with
  | @pair value encoded =>
    refine ⟨value, ?_, unquote_encodes (fun c d hd => ⟨hd.1, hd.2.1⟩) encoded⟩
    rw [readPair?, hstrip, cutFirst_append cookie.unassigned]

theorem readPair?_space (pair : List Char) : readPair? (' ' :: pair) = readPair? pair := by
  rw [readPair?, strip_cons_of_isBlank (by decide), readPair?]

end Pair

section Header

variable {cookies : List Named} {written : List (List Char)}

theorem intercalate_eq_joinWith (first : List Char) (rest : List (List Char)) :
    [';', ' '].intercalate (first :: rest) = joinWith ';' (first :: rest.map (' ' :: ·)) := by
  induction rest generalizing first with
  | nil => rw [List.intercalate_singleton, List.map_nil, joinWith]
  | cons next rest ih =>
    have hspace : joinWith ';' ((' ' :: next) :: rest.map (' ' :: ·)) =
        ' ' :: joinWith ';' (next :: rest.map (' ' :: ·)) := by
      cases rest <;> rfl
    rw [List.intercalate_cons_cons, ih, List.map_cons, joinWith, hspace, List.append_assoc]
    rfl

def valueUnder (name : String) (pair : List Char) : Option (List Char) :=
  match readPair? pair with
  | some (key, value) => if key = name.toList then some value else none
  | none => none

theorem get?_eq (header : String) (name : String) :
    get? (some header) name =
      ((splitOn ';' header.toList).findSome? (valueUnder name)).map
        fun value => String.ofList (unquote value) := rfl

theorem findSome?_headerOf (h : List.Forall₂ Named.Writes cookies written) (name : String) :
    (splitOn ';' (headerOf written).toList).findSome? (valueUnder name) =
      written.findSome? (valueUnder name) := by
  rw [headerOf, String.toList_ofList]
  cases written with
  | nil => rfl
  | cons first rest =>
    have hunseparated : ∀ pair ∈ first :: rest.map (' ' :: ·), ';' ∉ pair := by
      have hpairs : ∀ pair ∈ first :: rest, ';' ∉ pair := by
        intro pair hpair
        obtain ⟨cookie, _, hwrites⟩ := Outcome.exists_of_mem_right h hpair
        exact hwrites.notMem
      obtain ⟨hfirst, hrest⟩ := List.forall_mem_cons.mp hpairs
      refine List.forall_mem_cons.mpr ⟨hfirst, ?_⟩
      intro spaced hs
      obtain ⟨pair, hpair, rfl⟩ := List.mem_map.mp hs
      rw [List.mem_cons, not_or]
      exact ⟨by decide, hrest pair hpair⟩
    have hspace : valueUnder name ∘ (' ' :: ·) = valueUnder name := by
      funext pair
      rw [Function.comp_apply, valueUnder, readPair?_space, valueUnder]
    rw [intercalate_eq_joinWith, splitOn_joinWith (List.cons_ne_nil _ _) hunseparated,
      List.findSome?_cons, List.findSome?_map, hspace, List.findSome?_cons]

theorem findSome?_written (h : List.Forall₂ Named.Writes cookies written) (name : String) :
    (written.findSome? (valueUnder name)).map (fun value => String.ofList (unquote value)) =
      (cookies.find? fun cookie => cookie.name = name).map Named.value := by
  induction h with
  | nil => rfl
  | @cons cookie pair cookies written hpair _ ih =>
    obtain ⟨value, hread, hvalue⟩ := readPair?_written hpair
    rw [List.findSome?_cons, List.find?_cons, valueUnder, hread]
    dsimp only
    by_cases hname : cookie.name = name
    · rw [if_pos (congrArg String.toList hname), decide_eq_true hname, Option.map_some,
        Option.map_some, hvalue, String.ofList_toList]
    · rw [if_neg (fun hlist => hname (String.toList_inj.mp hlist)), decide_eq_false hname]
      exact ih

end Header

theorem exists_written (cookies : List Named) :
    ∃ written, List.Forall₂ Named.Writes cookies written := by
  induction cookies with
  | nil => exact ⟨[], .nil⟩
  | cons cookie rest ih =>
    obtain ⟨written, hwritten⟩ := ih
    obtain ⟨value, hvalue⟩ := exists_encodes Plain cookie.value.toList
    exact ⟨_, .cons (.pair hvalue) hwritten⟩

/-- Cookies with any values can be written, and under each name the header gives the value of the
first of them, or none. -/
theorem get?_headerOf (cookies : List Named) :
    (∃ written, List.Forall₂ Named.Writes cookies written) ∧
      ∀ written, List.Forall₂ Named.Writes cookies written → ∀ name,
        get? (some (headerOf written)) name =
          (cookies.find? fun cookie => cookie.name = name).map Named.value := by
  refine ⟨exists_written cookies, ?_⟩
  intro written hwritten name
  rw [get?_eq, findSome?_headerOf hwritten, findSome?_written hwritten]

theorem get?_headerOf_prefixed :
    let written := ["languages=it%3bde%3D1".toList, "lang=it".toList]
    ∃ names language : Named, (names.name, names.value) = ("languages", "it;de=1") ∧
      (language.name, language.value) = ("lang", "it") ∧
      List.Forall₂ Named.Writes [names, language] written ∧
      headerOf written = "languages=it%3bde%3D1; lang=it" ∧
      get? (some (headerOf written)) "languages" = some "it;de=1" ∧
      get? (some (headerOf written)) "lang" = some "it" ∧
      get? (some (headerOf written)) "langu" = none := by
  intro written
  let names : Named :=
    { name := "languages", value := "it;de=1", nonempty := by decide, unseparated := by decide,
      unassigned := by decide, unspaced := by simp [isBlank, blankRanges] }
  let language : Named :=
    { name := "lang", value := "it", nonempty := by decide, unseparated := by decide,
      unassigned := by decide, unspaced := by simp [isBlank, blankRanges] }
  have hsemicolon : Escaped (encodeChar ';') ['%', '3', 'b'] :=
    .cons (.lower (by decide)) (.lower (by decide)) .nil
  have hequality : Escaped (encodeChar '=') ['%', '3', 'D'] :=
    .cons (.lower (by decide)) (.upper (by decide)) .nil
  have hplain (c : Char) (h : c ∈ ['i', 't', 'd', 'e', '1']) : Plain c c := by
    simp only [List.mem_cons, List.not_mem_nil, or_false] at h
    rcases h with rfl | rfl | rfl | rfl | rfl <;> exact ⟨rfl, by decide, by decide, by decide⟩
  have hletters : Encodes Plain ['i', 't'] ['i', 't'] := .self (by simp [hplain])
  have hbehind : Encodes Plain ['=', '1'] (['%', '3', 'D'] ++ ['1']) :=
    .escaped hequality (.self (by simp [hplain]))
  have hrest : Encodes Plain [';', 'd', 'e', '=', '1']
      (['%', '3', 'b'] ++ 'd' :: 'e' :: (['%', '3', 'D'] ++ ['1'])) :=
    .escaped hsemicolon (.plain (hplain 'd' (by simp)) (.plain (hplain 'e' (by simp)) hbehind))
  have hencoded : Encodes Plain ['i', 't', ';', 'd', 'e', '=', '1']
      ('i' :: 't' :: (['%', '3', 'b'] ++ 'd' :: 'e' :: (['%', '3', 'D'] ++ ['1']))) :=
    .plain (hplain 'i' (by simp)) (.plain (hplain 't' (by simp)) hrest)
  have hnames : names.Writes "languages=it%3bde%3D1".toList := by
    have hpair := @Named.Writes.pair names _ (by simpa [names] using hencoded)
    simpa [names] using hpair
  have hlanguage : language.Writes "lang=it".toList := by
    have hpair := @Named.Writes.pair language _ (by simpa [language] using hletters)
    simpa [language] using hpair
  have hwritten : List.Forall₂ Named.Writes [names, language] written :=
    .cons hnames (.cons hlanguage .nil)
  have hget := (get?_headerOf [names, language]).2 written hwritten
  exact ⟨names, language, rfl, rfl, hwritten, rfl, hget "languages", hget "lang", hget "langu"⟩

end QueryPipeline.Cookie
