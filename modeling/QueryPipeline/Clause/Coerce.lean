import QueryPipeline.Fault
import QueryPipeline.Number.Numeral

namespace QueryPipeline.Coerce

def toNumber? : Value → Option Value
  | .int n => some (.int n)
  | .float x => if x.isFinite then some (.float x) else none
  | .text s =>
    match Numeral.int? s with
    | some n => some (.int n)
    | none =>
      match Numeral.float? s with
      | some x => if x.isFinite then some (.float x) else none
      | none => none
  | _ => none

/-- Does the text, but for blanks at its ends, have the form of a timestamp: digits behind at most
one minus? -/
def isTimestamp (s : String) : Bool :=
  let body :=
    match Text.strip s.toList with
    | '-' :: rest => rest
    | cs => cs
  !body.isEmpty && body.all Text.isDigit

def spellOutUniversal (cs : List Char) : List Char :=
  cs.flatMap fun c => if c = 'Z' then "+00:00".toList else [c]

def readMoment (s : String) : Option Moment :=
  Calendar.Iso.read (String.ofList (spellOutUniversal (Text.strip s.toList)))

/-- Refuses a value that cannot be converted to the type of its field. The message quotes a value,
so one that cannot be quoted cannot be refused in this way either. -/
def refuse (field : String) (shown : Value) (expected : FieldType) : Fault :=
  if shown.isQuotable then .invalidValue field shown expected else .mismatch .notInteger

/-- A moment: as it is, the start of a day, a timestamp in milliseconds, or as a text spells it. A
text in the form of a timestamp has to be an integer that can be read. -/
def toMoment (field : String) (v : Value) : Except Fault Value :=
  let orInvalid (shown : Value) : Option Moment → Except Fault Value
    | some t => .ok (.moment t)
    | none => .error (refuse field shown .date)
  match v with
  | .moment t => .ok (.moment t)
  | .day d => .ok (.moment (.ofDate d))
  | .int n => orInvalid v (Moment.ofMilliseconds? n)
  | .float x => orInvalid v (Moment.ofBinaryMilliseconds? x)
  | .text s =>
    if isTimestamp s then
      match Numeral.int? s with
      | some n => orInvalid (.int n) (Moment.ofMilliseconds? n)
      | none => .error (.mismatch .notInteger)
    else orInvalid v (readMoment s)
  | _ => orInvalid v none

def toTruth : Value → Bool
  | .bool b => b
  | .text s => s = "true"
  | _ => false

def value (field : String) (type : Option FieldType) (v : Value) : Except Fault Value :=
  match type with
  | some .number =>
    match toNumber? v with
    | some w => .ok w
    | none => .error (refuse field v .number)
  | some .date => toMoment field v
  | some .boolean => .ok (.bool (toTruth v))
  | _ => .ok v

def values (field : String) (type : Option FieldType) : Value → Except Fault Value
  | .list items => do return .list (← items.mapM (value field type))
  | v => value field type v

end QueryPipeline.Coerce
