import QueryPipeline.Clause.Scope
import QueryPipeline.Stage.Basic
import QueryPipeline.Text.Blank

namespace QueryPipeline

abbrev Projection := List (Scalar × Bool)

namespace Projection

def idField : Scalar := "_id"

def includes (p : Projection) : Bool :=
  p.any fun entry => entry.2 && entry.1 != idField

/-- Once a field is included, no field but the id is excluded. -/
def settle (p : Projection) : Projection :=
  if includes p then p.filter fun entry => entry.2 || entry.1 == idField else p

/-- A projection of fields, of which each keeps its first place and its last direction. -/
def ofFields (fields : List (String × Bool)) : Projection :=
  Entries.ofList (fields.map fun field => (.text field.1, field.2))

def toDict (p : Projection) : Dict :=
  p.map fun entry => (entry.1, .int (if entry.2 then 1 else 0))

def readToken (token : List Char) : List Char × Bool :=
  match Text.strip token with
  | '-' :: field => (field, false)
  | field => (field, true)

def readSignedToken (token : List Char) : List Char × Bool :=
  match Text.strip token with
  | '-' :: field => (field, false)
  | '+' :: field => (field, true)
  | field => (field, true)

def readTokens (readToken : List Char → List Char × Bool) (text : String) : List (String × Bool) :=
  (((Text.splitOn ';' text.toList).map readToken).filter fun token => token.1 ≠ []).map
    fun token => (String.ofList token.1, token.2)

def ofPayload (text : String) : Projection :=
  settle (ofFields (readTokens readSignedToken text))

def withTranslations (scope : Scope) (entry : String × Bool) : List (String × Bool) :=
  if scope.isTranslatable entry.1 then
    [entry, (scope.ownPath entry.1, entry.2)] ++
      (if scope.isDefaultLanguage then []
      else [(Scope.translatedPath scope.fallbackLanguage entry.1, entry.2)])
  else [entry]

def requested (scope : Scope) (q : QueryObject) : Projection :=
  ofFields ((readTokens readToken (q.controlText "fields")).flatMap (withTranslations scope))

def exclusions (settings : Settings) : Except Mismatch Projection := do
  return (← settings.hiddenNames).map fun name => (name, false)

/-- The projection with hidden fields taken out. When nothing that is wanted may be returned,
everything but the hidden fields is. -/
def enforce (settings : Settings) (p : Projection) : Except Mismatch Projection := do
  if settings.hiddenFields.isEmpty then return settle p
  else if includes p then
    let kept := (settle p).filter fun entry => !settings.hiddenFields.contains entry.1
    if includes kept then return kept else exclusions settings
  else return Entries.update (settle p) (← exclusions settings)

def stages (scope : Scope) (q : QueryObject) : Except Mismatch (List Stage) := do
  let p ← enforce scope.settings (requested scope q)
  return if p.isEmpty then [] else [.project (toDict p)]

end Projection

end QueryPipeline
