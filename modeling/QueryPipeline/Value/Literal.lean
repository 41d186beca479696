import QueryPipeline.Calendar.Iso
import QueryPipeline.Number.Numeral
import QueryPipeline.Text.Quoted
import QueryPipeline.Value.Shape

namespace QueryPipeline

/-- Messages write numbers positionally for exponents from -4 to 15, and with `.0` when whole. -/
def messageLayout : Layout where
  leastPoint := -3
  greatestPoint := 16
  wholeSuffix := ['.', '0']
  exponentDigits := 2
  infinityText := ['i', 'n', 'f']
  nanText := ['n', 'a', 'n']

def documentLayout : Layout where
  leastPoint := -3
  greatestPoint := 16
  wholeSuffix := ['.', '0']
  exponentDigits := 2
  infinityText := "Infinity".toList
  nanText := ['N', 'a', 'N']

def integerText (n : Int) : String :=
  String.ofList ((if n < 0 then ['-'] else []) ++ Nat.toDigits 10 n.natAbs)

def Binary64.messageText (x : Binary64) : String :=
  String.ofList (messageLayout.write x)

def Binary64.documentText (x : Binary64) : String :=
  String.ofList (documentLayout.write x)

def commaSeparated (texts : List String) : String :=
  String.intercalate ", " texts

namespace Date

def literal (d : Date) : String :=
  "datetime.date(" ++
    commaSeparated ([d.year, d.month, d.day].map fun (n : Nat) => integerText n) ++ ")"

def plain (d : Date) : String :=
  String.ofList (Calendar.Iso.dateText d)

end Date

namespace Moment

/-- An offset by its days, seconds and microseconds, of which only the days may be negative. -/
def offsetLiteral (offset : Int) : String :=
  if offset = 0 then "datetime.timezone.utc"
  else
    let days := offset / 86400000000
    let inDay := offset % 86400000000
    let parts :=
      [("days=", days), ("seconds=", inDay / 1000000), ("microseconds=", inDay % 1000000)]
    let shown := (parts.filter fun part => part.2 ≠ 0).map fun part => part.1 ++ integerText part.2
    "datetime.timezone(datetime.timedelta(" ++ commaSeparated shown ++ "))"

def literal (t : Moment) : String :=
  let numbers : List Nat :=
    [t.date.year, t.date.month, t.date.day, t.clock.hour, t.clock.minute] ++
      (if t.clock.microsecond.val ≠ 0 then [t.clock.second.val, t.clock.microsecond.val]
      else if t.clock.second.val ≠ 0 then [t.clock.second.val]
      else [])
  let place :=
    match t.offset with
    | none => []
    | some offset => ["tzinfo=" ++ offsetLiteral offset]
  "datetime.datetime(" ++
    commaSeparated (numbers.map (fun (n : Nat) => integerText n) ++ place) ++ ")"

def plain (t : Moment) : String :=
  Calendar.Iso.write ' ' t

end Moment

namespace Scalar

def literal : Scalar → String
  | .null => "None"
  | .bool true => "True"
  | .bool false => "False"
  | .int n => integerText n
  | .float x => x.messageText
  | .text s => Text.quoted s
  | .moment t => t.literal
  | .day d => d.literal

/-- A scalar as part of another text: text without quotes, and moments in the forms of ISO 8601. -/
def plain : Scalar → String
  | .text s => s
  | .moment t => t.plain
  | .day d => d.plain
  | s => s.literal

def document : Scalar → String
  | .null => "null"
  | .bool true => "true"
  | .bool false => "false"
  | .int n => integerText n
  | .float x => x.documentText
  | .text s => Text.documentText s
  | .moment t => Text.documentText t.plain
  | .day d => Text.documentText d.plain

def documentKey : Scalar → String
  | .text s => Text.documentText s
  | s => Text.documentText s.document

/-- A document has no form for an integer of too many digits. -/
def unwritable? : Scalar → Option Mismatch
  | .int n =>
    if Numeral.maxDigits < (Nat.toDigits 10 n.natAbs).length then some .notInteger else none
  | _ => none

/-- As a key, a document has no form for a moment or a day either. -/
def unwritableKey? : Scalar → Option Mismatch
  | .moment _ => some .notDocumentKey
  | .day _ => some .notDocumentKey
  | s => s.unwritable?

def isQuotable (s : Scalar) : Bool :=
  s.unwritable?.isNone

end Scalar

namespace Value

mutual

def literal : Value → String
  | .scalar s => s.literal
  | .list items => "[" ++ commaSeparated (literalItems items) ++ "]"
  | .map entries => "\x7b" ++ commaSeparated (literalEntries entries) ++ "\x7d"
  | .keyed entries => "\x7b" ++ commaSeparated (literalKeyed entries) ++ "\x7d"

def literalItems : List Value → List String
  | [] => []
  | v :: rest => literal v :: literalItems rest

def literalEntries : List (String × Value) → List String
  | [] => []
  | (key, v) :: rest => (Text.quoted key ++ ": " ++ literal v) :: literalEntries rest

def literalKeyed : List (Scalar × Value) → List String
  | [] => []
  | (key, v) :: rest => (key.literal ++ ": " ++ literal v) :: literalKeyed rest

end

mutual

def isQuotable : Value → Bool
  | .scalar s => s.isQuotable
  | .list items => itemsQuotable items
  | .map entries => entriesQuotable entries
  | .keyed entries => keyedQuotable entries

def itemsQuotable : List Value → Bool
  | [] => true
  | v :: rest => isQuotable v && itemsQuotable rest

def entriesQuotable : List (String × Value) → Bool
  | [] => true
  | (_, v) :: rest => isQuotable v && entriesQuotable rest

def keyedQuotable : List (Scalar × Value) → Bool
  | [] => true
  | (key, v) :: rest => key.isQuotable && isQuotable v && keyedQuotable rest

end

def plain : Value → String
  | .scalar s => s.plain
  | v => v.literal

def newline (depth : Nat) : String :=
  String.ofList ('\n' :: List.replicate (2 * depth) ' ')

def block (depth : Nat) (left right : String) (parts : List String) : String :=
  if parts.isEmpty then left ++ right
  else
    left ++ newline (depth + 1) ++ String.intercalate ("," ++ newline (depth + 1)) parts ++
      newline depth ++ right

mutual

def document (depth : Nat) : Value → String
  | .scalar s => s.document
  | .list items => block depth "[" "]" (documentItems (depth + 1) items)
  | .map entries => block depth "\x7b" "\x7d" (documentEntries (depth + 1) entries)
  | .keyed entries => block depth "\x7b" "\x7d" (documentKeyed (depth + 1) entries)

def documentItems (depth : Nat) : List Value → List String
  | [] => []
  | v :: rest => document depth v :: documentItems depth rest

def documentEntries (depth : Nat) : List (String × Value) → List String
  | [] => []
  | (key, v) :: rest =>
    (Text.documentText key ++ ": " ++ document depth v) :: documentEntries depth rest

def documentKeyed (depth : Nat) : List (Scalar × Value) → List String
  | [] => []
  | (key, v) :: rest =>
    (key.documentKey ++ ": " ++ document depth v) :: documentKeyed depth rest

end

mutual

/-- The first reason why a document has no form for the value, in the order in which it is written;
none if it has one. -/
def unwritable? : Value → Option Mismatch
  | .scalar s => s.unwritable?
  | .list items => unwritableItem? items
  | .map entries => unwritableField? entries
  | .keyed entries => unwritableKeyed? entries

def unwritableItem? : List Value → Option Mismatch
  | [] => none
  | v :: rest => (unwritable? v).or (unwritableItem? rest)

def unwritableField? : List (String × Value) → Option Mismatch
  | [] => none
  | (_, v) :: rest => (unwritable? v).or (unwritableField? rest)

def unwritableKeyed? : List (Scalar × Value) → Option Mismatch
  | [] => none
  | (key, v) :: rest => (key.unwritableKey?.or (unwritable? v)).or (unwritableKeyed? rest)

end

end Value

def Dict.literal (d : Dict) : String :=
  d.toValue.literal

end QueryPipeline
