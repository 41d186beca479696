import QueryPipeline.Proofs.Clause.ProjectionModes

namespace QueryPipeline

namespace Projection

/-- No field of the text stands behind a plus. -/
def Unsigned (text : String) : Prop :=
  ∀ token ∈ Text.splitOn ';' text.toList, (Text.strip token).head? ≠ some '+'

instance (text : String) : Decidable (Unsigned text) :=
  inferInstanceAs (Decidable (∀ token ∈ Text.splitOn ';' text.toList, _))

/-- The grammars differ in the plus alone. -/
theorem readSignedToken_eq_iff {token : List Char} :
    readSignedToken token = readToken token ↔ (Text.strip token).head? ≠ some '+' := by
  rw [readSignedToken, readToken]
  generalize Text.strip token = cs
  cases cs with
  | nil => simp
  | cons c field =>
    by_cases hminus : c = '-'
    · subst hminus
      simp
    · by_cases hplus : c = '+'
      · subst hplus
        simp
      · simp [hminus, hplus]

theorem readTokens_congr {read read' : List Char → List Char × Bool} {text : String}
    (h : ∀ token ∈ Text.splitOn ';' text.toList, read token = read' token) :
    readTokens read text = readTokens read' text := by
  rw [readTokens, List.map_congr_left h, readTokens]

theorem ofPayload_eq {text : String} (h : Unsigned text) :
    ofPayload text = settle (ofFields (readTokens readToken text)) := by
  rw [ofPayload, readTokens_congr fun token htoken => readSignedToken_eq_iff.mpr (h token htoken)]

section Query

variable {scope : Scope}

theorem withTranslations_of_untranslated (h : scope.settings.translates.truthy = false)
    (entry : String × Bool) : withTranslations scope entry = [entry] := by
  rw [withTranslations, Scope.isTranslatable, h, Bool.false_and, if_neg Bool.false_ne_true]

theorem requested_of_untranslated (h : scope.settings.translates.truthy = false)
    (q : QueryObject) :
    requested scope q = ofFields (readTokens readToken (q.controlText "fields")) := by
  rw [requested, funext (withTranslations_of_untranslated h), List.flatMap_singleton']

theorem enforce_of_unhidden {settings : Settings} (h : settings.hiddenFields = [])
    (p : Projection) : enforce settings p = .ok (settle p) := by
  rw [enforce, h]
  rfl

theorem stages_eq {q : QueryObject} {text : String} (hidden : scope.settings.hiddenFields = [])
    (untranslated : scope.settings.translates.truthy = false)
    (hfields : q.controlText "fields" = text) (unsigned : Unsigned text) :
    stages scope q =
      .ok (if (ofPayload text).isEmpty then [] else [.project (toDict (ofPayload text))]) := by
  rw [stages, enforce_of_unhidden hidden, requested_of_untranslated untranslated, hfields,
    ← ofPayload_eq unsigned]
  rfl

end Query

end Projection

namespace Session

open Projection

/-- A query and a join that write the same text without a plus ask for the same projection, when no
field is hidden and none is translated: the same fields, in the same order, included or excluded
alike. The query adds it as a stage, unless it names no field. -/
theorem limitFields_eq_ofPayload {s : Session} {text : String}
    (happlied : s.applied.contains .limitFields = false) (hcompiled : s.compiled = none)
    (hidden : s.scope.settings.hiddenFields = [])
    (untranslated : s.scope.settings.translates.truthy = false)
    (hfields : s.parameters.controlValue "fields" = .text text) (unsigned : Unsigned text) :
    (s.apply .limitFields).1 = .ok .nothing ∧
      (s.apply .limitFields).2.stages = s.stages ++
        if (ofPayload text).isEmpty then [] else [.project (toDict (ofPayload text))] := by
  have hfresh : s.applied.contains Clause.limitFields.operation = false := happlied
  have htext : s.parameters.controlText "fields" = text := by
    rw [QueryObject.controlText, hfields]
  have houtcome : s.outcome .limitFields = .ok
      (if (ofPayload text).isEmpty then [] else [.project (toDict (ofPayload text))]) :=
    congrArg Mismatch.lift (stages_eq hidden untranslated htext unsigned)
  obtain ⟨log, happly⟩ := apply_of_open hfresh hcompiled
  rw [happly, added, houtcome]
  exact ⟨rfl, rfl⟩

theorem limitFields_eq_ofPayload_contradictory :
    let schema : Schema :=
      { origin := .mapping, modelName := none, fields := [("name", { type := .string })],
        translatable := ["name"], collection := none }
    let text := "-name; name ;-email;-;-_id;- x"
    let q : QueryObject := { control := [("fields", .text text)], filters := [], joins := [] }
    let s : Session := { scope := { schema, settings := {}, asked := none }, parameters := q }
    start (.schema schema) {} (.map [("fields", .text text)]) .null = ([], .ok s) ∧
      Unsigned text ∧ toDict (ofPayload text) = [(.text "name", .int 1), (.text "_id", .int 0)] ∧
      (s.apply .limitFields).1 = .ok .nothing ∧
      (s.apply .limitFields).2.stages = s.stages ++
        if (ofPayload text).isEmpty then [] else [.project (toDict (ofPayload text))] := by
  intro schema text q s
  have unsigned : Unsigned text := by decide
  have asked : ofPayload text = [(.text "name", true), (.text "_id", false)] := by
    subst s q text
    rfl
  exact ⟨rfl, unsigned, congrArg toDict asked,
    limitFields_eq_ofPayload rfl rfl rfl rfl rfl unsigned⟩

end Session

end QueryPipeline
