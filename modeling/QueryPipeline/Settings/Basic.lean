import QueryPipeline.Fault
import QueryPipeline.Value.Ascending

namespace QueryPipeline

structure Settings where
  countsTotal : Value := .bool true
  hiddenFields : List Scalar := []
  translates : Value := .bool false
  defaultLanguage : Value := .text "en"
  languages : Option (List Scalar) := none
  pageSize : Int := 25
  /-- the field to sort by, descending, when the query names none; null for no sort -/
  defaultSort : Value := .text "createdAt"
  logs : Value := .bool false

namespace Settings

def keywords : List String :=
  ["enable_total_count", "fields_to_hide", "translations_enabled", "default_lang",
   "available_langs", "default_limit", "default_sort_field", "log_query"]

def pageSizeOf : Value → Except Fault Int
  | .int n => if 0 < n then .ok n else .error (.invalidPageSize (.int n))
  | v => .error (.invalidPageSize v)

def setUnder (entries : Entries Value) (keyword : String) :
    Except Mismatch (Option (List Scalar)) :=
  match Entries.get? entries keyword with
  | none => .ok none
  | some .null => .ok none
  | some v => some <$> v.toSet

/-- The names under which a call gets what it works on; they cannot be keywords as well. -/
def makerName : String := "cls"

def receiverName : String := "self"

/-- The settings of keyword values. Unknown keywords are refused first, then what is no set, then a
page size that is none. -/
def create (entries : Entries Value) : Except Fault Settings := do
  if Entries.has entries makerName then throw (.mismatch .keywordTaken)
  let unknown := (Entries.keys entries).filter fun key => !keywords.contains key
  if unknown ≠ [] then
    throw (.unknownSettings (unknown.mergeSort fun a b => decide (a ≤ b)))
  let hidden ← Mismatch.lift (setUnder entries "fields_to_hide")
  let languages ← Mismatch.lift (setUnder entries "available_langs")
  let given (keyword : String) (fallback : Value) : Value :=
    (Entries.get? entries keyword).getD fallback
  let pageSize ← pageSizeOf (given "default_limit" (.int 25))
  return {
    countsTotal := given "enable_total_count" (.bool true)
    hiddenFields := hidden.getD []
    translates := given "translations_enabled" (.bool false)
    defaultLanguage := given "default_lang" (.text "en")
    languages
    pageSize
    defaultSort := given "default_sort_field" (.text "createdAt")
    logs := given "log_query" (.bool false) }

def toEntries (s : Settings) : Entries Value :=
  [("enable_total_count", s.countsTotal),
   ("fields_to_hide", .list (s.hiddenFields.map .scalar)),
   ("translations_enabled", s.translates),
   ("default_lang", s.defaultLanguage),
   ("available_langs", match s.languages with
     | some languages => .list (languages.map .scalar)
     | none => .null),
   ("default_limit", .int s.pageSize),
   ("default_sort_field", s.defaultSort),
   ("log_query", s.logs)]

def replace (s : Settings) (changes : Entries Value) : Except Fault Settings :=
  if Entries.has changes receiverName then .error (.mismatch .keywordTaken)
  else create (Entries.update s.toEntries changes)

def sectionOf (v : Value) : Except Mismatch Dict :=
  (v.orElse (.map [])).asDict

def ofNested (v : Value) : Except Fault Settings := do
  let entries ← Mismatch.lift (sectionOf v)
  let given (entries : Dict) (key : String) : Value :=
    (Entries.get? entries (.text key)).getD .null
  let translations ← Mismatch.lift (sectionOf (given entries "translations"))
  let pagination ← Mismatch.lift (sectionOf (given entries "pagination"))
  let debug ← Mismatch.lift (sectionOf (given entries "debug"))
  let countsTotal :=
    match Entries.get? entries (.text "enableTotalCount") with
    | some (.bool false) => false
    | _ => true
  create (
    [("enable_total_count", .bool countsTotal),
     ("fields_to_hide", (given entries "fieldsToHide").orElse (.list [])),
     ("translations_enabled", .bool (given translations "enabled").truthy),
     ("default_lang", (given translations "defaultLang").orElse (.text "en")),
     ("available_langs", (given translations "availableLangs").orElse .null),
     ("default_limit", (given pagination "defaultLimit").orElse (.int 25)),
     ("log_query", .bool (given debug "logQuery").truthy)] ++
    (match Entries.get? entries (.text "defaultSortField") with
    | some field => [("default_sort_field", field)]
    | none => []))

def acceptsLanguage (s : Settings) (language : Value) : Except Mismatch Bool :=
  match s.languages with
  | none => .ok true
  | some languages => do return languages.contains (← language.asScalar)

def hiddenNames (s : Settings) : Except Mismatch (List Scalar) :=
  Scalar.ascending s.hiddenFields

end Settings

end QueryPipeline
