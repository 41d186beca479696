import QueryPipeline.Calendar.Moment

namespace QueryPipeline.Calendar.Iso

def twoDigits (n : Nat) : List Char :=
  [Nat.digitChar (n / 10 % 10), Nat.digitChar (n % 10)]

def fourDigits (n : Nat) : List Char :=
  twoDigits (n / 100) ++ twoDigits n

def sixDigits (n : Nat) : List Char :=
  '.' :: twoDigits (n / 10000) ++ twoDigits (n / 100) ++ twoDigits n

def dateText (d : Date) : List Char :=
  fourDigits d.year ++ '-' :: twoDigits d.month ++ '-' :: twoDigits d.day

def clockText (c : Clock) : List Char :=
  twoDigits c.hour ++ ':' :: twoDigits c.minute ++ ':' :: twoDigits c.second ++
    (if c.microsecond.val = 0 then [] else sixDigits c.microsecond)

def offsetText (offset : Int) : List Char :=
  let total := offset.natAbs
  let micro := total % 1000000
  let seconds := total / 1000000
  (if offset < 0 then '-' else '+') :: twoDigits (seconds / 3600) ++
    ':' :: twoDigits (seconds / 60 % 60) ++
    (if seconds % 60 = 0 ∧ micro = 0 then [] else ':' :: twoDigits (seconds % 60)) ++
    (if micro = 0 then [] else sixDigits micro)

def write (sep : Char) (t : Moment) : String :=
  String.ofList (dateText t.date ++ sep :: clockText t.clock ++
    (match t.offset with
    | none => []
    | some offset => offsetText offset))

def takeNumber (count : Nat) (cs : List Char) : Option (Nat × List Char) :=
  let front := cs.take count
  if front.length = count ∧ front.all Char.isDigit then
    some (front.foldl (fun n c => 10 * n + (c.toNat - '0'.toNat)) 0, cs.drop count)
  else none

/-- How many characters the day takes, as its beginning tells. -/
def dateLength (cs : List Char) : Nat :=
  if cs.length = 7 then 7
  else if cs[4]? = some '-' then
    if cs[5]? = some 'W' ∧ cs[8]? = some '-' then
      if cs[10]?.any Char.isDigit then 8 else 10
    else if cs[5]? = some 'W' then 8
    else 10
  else if cs[4]? = some 'W' then
    let digits := ((cs.drop 7).takeWhile Char.isDigit).length
    if digits < 2 then 7 + digits
    else if digits % 2 = 1 then 7
    else 8
  else 8

def readWeek (hyphens : Bool) (year : Nat) (cs : List Char) : Option Date := do
  let (week, rest) ← takeNumber 2 cs
  match hyphens, rest with
  | _, [] => Date.ofWeek? year week 1
  | true, '-' :: more =>
    match ← takeNumber 1 more with
    | (day, []) => Date.ofWeek? year week day
    | _ => none
  | false, more =>
    match ← takeNumber 1 more with
    | (day, []) => Date.ofWeek? year week day
    | _ => none
  | _, _ => none

def readMonth (hyphens : Bool) (year : Nat) (cs : List Char) : Option Date := do
  let (month, rest) ← takeNumber 2 cs
  let rest ←
    match hyphens, rest with
    | true, '-' :: more => some more
    | true, _ => none
    | false, more => some more
  match ← takeNumber 2 rest with
  | (day, []) => Date.of? year month day
  | _ => none

def readDate (cs : List Char) : Option Date := do
  let (year, rest) ← takeNumber 4 cs
  match rest with
  | '-' :: 'W' :: more => readWeek true year more
  | '-' :: more => readMonth true year more
  | 'W' :: more => readWeek false year more
  | more => readMonth false year more

structure Parts where
  given : List Nat
  microsecond : Nat

/-- A fraction of a second: six digits count and more are passed over. Fewer than six must be all
that is left. Returns what stands behind. -/
def readFraction (cs : List Char) : Option (Nat × List Char) := do
  let count := min 6 cs.length
  let (n, rest) ← takeNumber count cs
  return (n * Nat.pow 10 (6 - count), rest.dropWhile Char.isDigit)

/-- At most `left` parts of two digits, then a fraction. The colons are between all parts or between
none, as the first one tells. A single character of ASCII behind a part, and all that is behind six
digits of a fraction, is returned unread. -/
def readParts (colons : Option Bool) : (left : Nat) → List Char → Option (Parts × List Char)
  | 0, cs => do
    let (micro, rest) ← readFraction cs
    return (⟨[], micro⟩, rest)
  | left + 1, cs => do
    let (n, rest) ← takeNumber 2 cs
    match rest with
    | [] => return (⟨[n], 0⟩, [])
    | c :: more =>
      let colons := colons.getD (c = ':')
      if more = [] ∧ c.toNat < 0x80 then return (⟨[n], 0⟩, [c])
      else if colons ∧ c = ':' then
        let (parts, tail) ← readParts (some true) left more
        return ({ parts with given := n :: parts.given }, tail)
      else if c = '.' ∨ c = ',' then
        let (micro, tail) ← readFraction more
        return (⟨[n], micro⟩, tail)
      else if !colons then
        let (parts, tail) ← readParts (some false) left rest
        return ({ parts with given := n :: parts.given }, tail)
      else none

def ended : List Char → Bool
  | [] => true
  | c :: _ => c.toNat = 0

/-- An offset in microseconds, less than a day. One of no whole seconds is no offset, whatever its
fraction. -/
def readOffset (negative : Bool) (cs : List Char) : Option Int := do
  let (parts, rest) ← readParts none 3 cs
  let part (i : Nat) : Nat := parts.given.getD i 0
  let seconds := part 0 * 3600 + part 1 * 60 + part 2
  let micro : Int := if seconds = 0 then 0 else (seconds * 1000000 + parts.microsecond : Nat)
  if ended rest ∧ micro < 86400000000 then some (if negative then -micro else micro) else none

/-- A time of the day with the offset behind it. What `readParts` leaves unread is passed over when
an offset follows, and refused when none does. -/
def readTime (cs : List Char) : Option (Clock × Option Int) := do
  let isSign (c : Char) : Bool := c = '+' || c = '-'
  let body := cs.takeWhile fun c => !isSign c
  let (parts, rest) ← readParts none 3 body
  let part (i : Nat) : Nat := parts.given.getD i 0
  let clock ← Clock.of? (part 0) (part 1) (part 2) parts.microsecond
  match cs.drop body.length with
  | [] => if ended rest then some (clock, none) else none
  | mark :: more =>
    let offset ← readOffset (mark = '-') more
    return (clock, some offset)

def read (s : String) : Option Moment := do
  let cs := s.toList
  let length := dateLength cs
  let date ← readDate (cs.take length)
  match cs.drop length with
  | [] => return .ofDate date
  | _ :: time =>
    let (clock, offset) ← readTime time
    return ⟨date, clock, offset⟩

end QueryPipeline.Calendar.Iso
