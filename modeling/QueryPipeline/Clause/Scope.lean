import QueryPipeline.Settings.Basic

namespace QueryPipeline

structure Scope where
  schema : Schema
  settings : Settings
  /-- the language that was asked for, when it was accepted -/
  asked : Option Value

namespace Scope

def language (scope : Scope) : Value :=
  scope.asked.getD scope.settings.defaultLanguage

def isTranslatable (scope : Scope) (field : String) : Bool :=
  scope.settings.translates.truthy && scope.schema.isTranslatable field

def translatedPath (language : Value) (field : String) : String :=
  "translations." ++ language.plain ++ "." ++ field

def ownPath (scope : Scope) (field : String) : String :=
  translatedPath scope.language field

def fallbackLanguage (scope : Scope) : Value :=
  scope.settings.defaultLanguage.orElse scope.language

def isDefaultLanguage (scope : Scope) : Bool :=
  match scope.asked with
  | some language => language.same scope.settings.defaultLanguage
  | none => scope.settings.defaultLanguage.equalsItself

/-- Where to look when there is no value in the language of the request: at the value in the default
language, and in that language at the field itself. -/
def fallbackPath (scope : Scope) (field : String) : String :=
  if scope.isDefaultLanguage then field else translatedPath scope.fallbackLanguage field

def queryPaths (scope : Scope) (field : String) : List String :=
  if scope.isTranslatable field then [scope.ownPath field, scope.fallbackPath field] else [field]

theorem queryPaths_of_not_translatable {scope : Scope} {field : String}
    (h : scope.isTranslatable field = false) : scope.queryPaths field = [field] := by
  rw [queryPaths, h, if_neg Bool.false_ne_true]

theorem exists_last_queryPath (scope : Scope) (field : String) :
    ∃ before last, scope.queryPaths field = before ++ [last] := by
  rw [queryPaths]
  split
  · exact ⟨[scope.ownPath field], scope.fallbackPath field, rfl⟩
  · exact ⟨[], field, rfl⟩

theorem queryPaths_ne_nil {scope : Scope} {field : String} : scope.queryPaths field ≠ [] := by
  obtain ⟨before, last, hpaths⟩ := exists_last_queryPath scope field
  rw [hpaths]
  exact List.concat_ne_nil last before

end Scope

end QueryPipeline
