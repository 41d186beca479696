import QueryPipeline.Query.Cookie
import QueryPipeline.Settings.Basic

namespace QueryPipeline

namespace Settings

def accepted? (s : Settings) (language : Value) : Except Mismatch (Option Value) := do
  if language.truthy then
    if ← s.acceptsLanguage language then return some language
  return none

/-- The language that the query names, else the one that the cookie names, when it is text and
accepted; else the default one. -/
def resolveLanguage (s : Settings) (query : Value) (cookies : Option String) :
    Except Mismatch Value := do
  let entries ← (query.orElse (.map [])).asDict
  let named := (Entries.get? entries (.text "lang")).getD .null
  let language :=
    if named.truthy then named
    else ((Cookie.get? cookies "lang").map Value.text).getD .null
  if language.isText then return (← s.accepted? language).getD s.defaultLanguage
  else return s.defaultLanguage

end Settings

end QueryPipeline
