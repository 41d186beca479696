import QueryPipeline.Proofs.Query.Control
import QueryPipeline.Proofs.Request.Application

namespace QueryPipeline

open Outcome

theorem Value.orElse_of_truthy {v : Value} (h : v.truthy = true) (fallback : Value) :
    v.orElse fallback = v := by
  rw [orElse, if_pos h]

theorem Value.orElse_of_not_truthy {v : Value} (h : v.truthy = false) (fallback : Value) :
    v.orElse fallback = fallback := by
  rw [orElse, h, if_neg Bool.false_ne_true]

def Value.Spoken (v : Value) : Prop :=
  v = .null ∨ ∃ name, v = .text name

theorem Value.Spoken.orElse {v fallback : Value} (h : v.Spoken) (h' : fallback.Spoken) :
    (v.orElse fallback).Spoken := by
  rw [Value.orElse]
  split
  · exact h
  · exact h'

def Cookie.language (header : Option String) : Value :=
  ((get? header "lang").map Value.text).getD .null

theorem Cookie.language_spoken (header : Option String) : (language header).Spoken := by
  rw [language]
  cases get? header "lang" with
  | none => exact .inl rfl
  | some name => exact .inr ⟨name, rfl⟩

namespace Settings

variable {s : Settings} {v : Value}

/-- The value names a language, and the language is accepted. -/
def Speaks (s : Settings) (language : Value) : Prop :=
  ∃ name, language = .text name ∧ name ≠ "" ∧ s.acceptsLanguage language = .ok true

theorem Speaks.truthy (h : s.Speaks v) : v.truthy = true := by
  obtain ⟨name, rfl, hname, _⟩ := h
  exact decide_eq_true hname

theorem Speaks.accepted? (h : s.Speaks v) : s.accepted? v = .ok (some v) := by
  have htruthy := h.truthy
  obtain ⟨_, _, _, haccepts⟩ := h
  rw [Settings.accepted?, if_pos htruthy, haccepts]
  rfl

theorem accepted?_of_not_truthy (h : v.truthy = false) : s.accepted? v = .ok none := by
  rw [accepted?, h, if_neg Bool.false_ne_true]
  rfl

theorem acceptsLanguage_text (s : Settings) (name : String) :
    ∃ accepts, s.acceptsLanguage (.text name) = .ok accepts := by
  rw [acceptsLanguage]
  cases s.languages with
  | none => exact ⟨true, rfl⟩
  | some languages => exact ⟨languages.contains (.text name), rfl⟩

theorem accepted?_cases (hv : v.Spoken) : s.Speaks v ∨ s.accepted? v = .ok none := by
  cases htruthy : v.truthy with
  | false => exact .inr (accepted?_of_not_truthy htruthy)
  | true =>
    rcases hv with rfl | ⟨name, rfl⟩
    · cases htruthy
    · obtain ⟨accepts, haccepts⟩ := s.acceptsLanguage_text name
      cases accepts with
      | true => exact .inl ⟨name, rfl, of_decide_eq_true htruthy, haccepts⟩
      | false =>
        right
        rw [accepted?, if_pos htruthy, haccepts]
        rfl

theorem accepted?_ok (hv : v.Spoken) : ∃ asked, s.accepted? v = .ok asked := by
  rcases accepted?_cases (s := s) hv with h | h
  · exact ⟨_, h.accepted?⟩
  · exact ⟨_, h⟩

theorem accepted?_of_orElse {fallback : Value} (h : s.accepted? (v.orElse fallback) = .ok none) :
    s.accepted? v = .ok none := by
  cases hv : v.truthy with
  | true => rwa [Value.orElse_of_truthy hv] at h
  | false => exact accepted?_of_not_truthy hv

/-- The language of the query comes before the one of the cookies. -/
theorem resolveLanguage_eq {query : Value} {entries : Dict}
    (hentries : (query.orElse (.map [])).asDict = .ok entries)
    (hv : (Entries.get? entries (.text "lang")).getD .null = v)
    (hspoken : v.Spoken) (cookies : Option String) :
    s.resolveLanguage query cookies =
      (fun asked => asked.getD s.defaultLanguage) <$>
        s.accepted? (v.orElse (Cookie.language cookies)) := by
  have hresolve : s.resolveLanguage query cookies =
      if (v.orElse (Cookie.language cookies)).isText then
        (do return (← s.accepted? (v.orElse (Cookie.language cookies))).getD s.defaultLanguage)
      else .ok s.defaultLanguage := by
    rw [resolveLanguage, hentries, ← hv]
    rfl
  rw [hresolve]
  rcases hspoken.orElse (Cookie.language_spoken cookies) with h | ⟨name, h⟩
  · rw [h]
    rfl
  · rw [h, Value.isText, if_pos rfl]
    cases s.accepted? (.text name) <;> rfl

end Settings

namespace Session

variable {source : SchemaSource} {schema : Schema} {settings : Settings} {query : Value}
  {q : QueryObject}

theorem start_of_asked {entries : Dict} {language : Value} {asked : Option Value}
    (hresolve : source.resolve = .ok schema)
    (hentries : (query.orElse (.map [])).asDict = .ok entries)
    (hparse : QueryObject.parse schema entries = .ok q)
    (hasked : settings.accepted? (language.orElse (q.controlValue "lang")) = .ok asked) :
    ∃ lines s, start source settings query language = (lines, .ok s) ∧
      s.scope.language = asked.getD settings.defaultLanguage := by
  have hread : Mismatch.lift (query.orElse (.map [])).toDict = .ok entries :=
    lift_eq_ok_iff.mpr (Value.toDict_of_asDict hentries)
  have hlang : Mismatch.lift (askedLanguage settings language q) = .ok asked :=
    lift_eq_ok_iff.mpr hasked
  rw [start, hresolve, hread]
  dsimp only [bind, Except.bind, pure, Except.pure]
  rw [hparse]
  dsimp only
  rw [hlang]
  exact ⟨_, _, rfl, rfl⟩

theorem start_speaks_accepted {entries : Dict} {language : Value}
    (hresolve : source.resolve = .ok schema)
    (hentries : (query.orElse (.map [])).asDict = .ok entries)
    (hparse : QueryObject.parse schema entries = .ok q)
    (hspeaks : settings.Speaks language) :
    ∃ lines s, start source settings query language = (lines, .ok s) ∧
      s.scope.language = language := by
  have hasked : settings.accepted? (language.orElse (q.controlValue "lang")) =
      .ok (some language) := by
    rw [Value.orElse_of_truthy hspeaks.truthy, hspeaks.accepted?]
  exact start_of_asked hresolve hentries hparse hasked

/-- A session that is given the default language speaks it, unless the query names another one that
is accepted. -/
theorem start_speaks_default {entries : Dict} {default : String}
    (hresolve : source.resolve = .ok schema)
    (hentries : (query.orElse (.map [])).asDict = .ok entries)
    (hparse : QueryObject.parse schema entries = .ok q)
    (hdefault : settings.defaultLanguage = .text default)
    (hnone : settings.accepted? (q.controlValue "lang") = .ok none) :
    ∃ lines s, start source settings query settings.defaultLanguage = (lines, .ok s) ∧
      s.scope.language = settings.defaultLanguage := by
  have hasked : ∃ asked, settings.accepted? (settings.defaultLanguage.orElse
      (q.controlValue "lang")) = .ok asked ∧
      asked.getD settings.defaultLanguage = settings.defaultLanguage := by
    cases htruthy : settings.defaultLanguage.truthy with
    | false =>
      rw [Value.orElse_of_not_truthy htruthy]
      exact ⟨none, hnone, rfl⟩
    | true =>
      rw [Value.orElse_of_truthy htruthy]
      rcases Settings.accepted?_cases (s := settings) (.inr ⟨default, hdefault⟩) with h | h
      · exact ⟨_, h.accepted?, rfl⟩
      · exact ⟨none, h, rfl⟩
  obtain ⟨asked, hasked, hlanguage⟩ := hasked
  obtain ⟨lines, s, hs, hspeaks⟩ := start_of_asked hresolve hentries hparse hasked
  exact ⟨lines, s, hs, hspeaks.trans hlanguage⟩

/-- For a query that is accepted a language is resolved: the default one, or one that is named and
accepted. A session that is given this language speaks it, and a session that is given none speaks
the language that is resolved without cookies. -/
theorem start_speaks_resolved {default : String} (cookies : Option String)
    (hresolve : source.resolve = .ok schema)
    (hparse : QueryObject.parseValue schema query = .ok q)
    (hdefault : settings.defaultLanguage = .text default) :
    ∃ language, settings.resolveLanguage query cookies = .ok language ∧
      (language = settings.defaultLanguage ∨
        ∃ name, language = .text name ∧ name ≠ "" ∧
          settings.acceptsLanguage language = .ok true) ∧
      (∃ lines s, start source settings query language = (lines, .ok s) ∧
        s.scope.language = language) ∧
      ∃ lines s, start source settings query .null = (lines, .ok s) ∧
        settings.resolveLanguage query none = .ok s.scope.language := by
  obtain ⟨entries, hread, hparse⟩ := bind_eq_ok_iff.mp hparse
  have hentries := lift_eq_ok_iff.mp hread
  have hvalue : (Entries.get? entries (.text "lang")).getD .null = q.controlValue "lang" :=
    (QueryObject.controlValue_eq_get? hparse rfl).symm
  have hspoken : (q.controlValue "lang").Spoken := QueryObject.controlValue_text hparse rfl
  have hresolved (cookies : Option String) :=
    Settings.resolveLanguage_eq (s := settings) hentries hvalue hspoken cookies
  have hunnamed : settings.resolveLanguage query none =
      (fun asked => asked.getD settings.defaultLanguage) <$>
        settings.accepted? (q.controlValue "lang") := by
    rw [hresolved]
    cases hv : (q.controlValue "lang").truthy with
    | true => rw [Value.orElse_of_truthy hv]
    | false =>
      rw [Value.orElse_of_not_truthy hv, Settings.accepted?_of_not_truthy hv]
      rfl
  have hungiven : ∃ lines s, start source settings query .null = (lines, .ok s) ∧
      settings.resolveLanguage query none = .ok s.scope.language := by
    obtain ⟨asked, hasked⟩ := Settings.accepted?_ok (s := settings) hspoken
    have hnull : settings.accepted? (Value.null.orElse (q.controlValue "lang")) = .ok asked :=
      hasked
    obtain ⟨lines, s, hs, hlanguage⟩ := start_of_asked hresolve hentries hparse hnull
    refine ⟨lines, s, hs, ?_⟩
    rw [hunnamed, hasked, hlanguage]
    rfl
  rcases Settings.accepted?_cases (s := settings)
    (hspoken.orElse (Cookie.language_spoken cookies)) with hspeaks | hnone
  · refine ⟨_, ?_, .inr hspeaks, ?_, hungiven⟩
    · rw [hresolved, hspeaks.accepted?]
      rfl
    · exact start_speaks_accepted hresolve hentries hparse hspeaks
  · refine ⟨settings.defaultLanguage, ?_, .inl rfl, ?_, hungiven⟩
    · rw [hresolved, hnone]
      rfl
    · exact start_speaks_default hresolve hentries hparse hdefault
        (Settings.accepted?_of_orElse hnone)

theorem start_speaks_resolved_cookie :
    let schema : Schema :=
      { origin := .mapping, modelName := none, fields := [("name", { type := .string })],
        translatable := ["name"], collection := none }
    let settings : Settings := { translates := .bool true, languages := some ["it", "de"] }
    let query : Value := .map [("name", .text "Jane"), ("lang", .text "")]
    let cookies := some "theme=dark; lang=it"
    settings.resolveLanguage query cookies = .ok (.text "it") ∧
      ∃ language, settings.resolveLanguage query cookies = .ok language ∧
        (language = settings.defaultLanguage ∨
          ∃ name, language = .text name ∧ name ≠ "" ∧
            settings.acceptsLanguage language = .ok true) ∧
        (∃ lines s, start (.schema schema) settings query language = (lines, .ok s) ∧
          s.scope.language = language) ∧
        ∃ lines s, start (.schema schema) settings query .null = (lines, .ok s) ∧
          settings.resolveLanguage query none = .ok s.scope.language := by
  intro schema settings query cookies
  have hresolve : (SchemaSource.schema schema).resolve = .ok schema := rfl
  let q : QueryObject :=
    { control := [("lang", .text "")], filters := [.equals "name" (.text "Jane")], joins := [] }
  have hparse : QueryObject.parseValue schema query = .ok q := rfl
  have hcookie : Cookie.get? cookies "lang" = some "it" := by
    subst cookies
    decide +kernel
  have hresolved : settings.resolveLanguage query cookies = .ok (.text "it") := by
    rw [Settings.resolveLanguage, hcookie]
    rfl
  exact ⟨hresolved, start_speaks_resolved cookies hresolve hparse rfl⟩

end Session

end QueryPipeline
