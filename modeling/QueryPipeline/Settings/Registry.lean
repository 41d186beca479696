import QueryPipeline.Settings.Basic

namespace QueryPipeline

structure Registry where
  settings : Settings
  frozen : Bool := false

namespace Registry

def settingsName : String := "settings"

/-- The arguments of a configuration. Complete settings, or null, come in their place or under their
name; all other names are those of keyword values. -/
structure Arguments where
  placed : Option (Option Settings) := none
  named : Option (Option Settings) := none
  keywords : Entries Value := []
  unnamed : ∀ e ∈ keywords, e.1 ≠ settingsName := by decide

namespace Arguments

/-- Settings in their place, beside values under all kinds of names. What stands under the name of
the settings is of no account then, only that it is there. -/
def ofPlaced (settings : Option Settings) (values : Entries Value) : Arguments where
  placed := some settings
  named := if Entries.has values settingsName then some none else none
  keywords := Entries.erase values settingsName
  unnamed := fun e he => by simpa using (List.mem_filter.mp he).2

def given (arguments : Arguments) : Option Settings :=
  (arguments.placed.or arguments.named).join

/-- What a configuration gets. A call is refused before it, when settings come twice or a keyword
has the name of what it works on. -/
def bind (arguments : Arguments) : Except Mismatch (Option Settings × Entries Value) :=
  if Entries.has arguments.keywords Settings.receiverName then .error .keywordTaken
  else if arguments.placed.isSome && arguments.named.isSome then .error .keywordTaken
  else .ok (arguments.given, arguments.keywords)

end Arguments

def configure (r : Registry) (arguments : Arguments) : Except Fault Registry := do
  let (settings, keywords) ← Mismatch.lift arguments.bind
  if r.frozen then throw .settingsFrozen
  match settings with
  | some settings =>
    if !keywords.isEmpty then throw .settingsTwice
    return { r with settings }
  | none => return { r with settings := ← Settings.create keywords }

def get (r : Registry) : Settings × Registry :=
  (r.settings, { r with frozen := true })

end Registry

end QueryPipeline
