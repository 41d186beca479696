import QueryPipeline.Calendar.Date
import QueryPipeline.Number.Binary64

namespace QueryPipeline

structure Clock where
  hour : Fin 24
  minute : Fin 60
  second : Fin 60
  microsecond : Fin 1000000
deriving DecidableEq

namespace Clock

def of? (hour minute second microsecond : Nat) : Option Clock :=
  if h : hour < 24 ∧ minute < 60 ∧ second < 60 ∧ microsecond < 1000000 then
    some ⟨⟨hour, h.1⟩, ⟨minute, h.2.1⟩, ⟨second, h.2.2.1⟩, ⟨microsecond, h.2.2.2⟩⟩
  else none

def midnight : Clock := ⟨0, 0, 0, 0⟩

def microseconds (c : Clock) : Nat :=
  ((c.hour.val * 60 + c.minute.val) * 60 + c.second.val) * 1000000 + c.microsecond.val

end Clock

structure Moment where
  date : Date
  clock : Clock
  /-- microseconds ahead of universal time; none for a moment of no particular place -/
  offset : Option Int
deriving DecidableEq

namespace Moment

def ofDate (d : Date) : Moment := ⟨d, .midnight, none⟩

def localMicroseconds (t : Moment) : Int :=
  ((t.date.ordinal - 1) * 86400000000 + t.clock.microseconds : Nat)

/-- Two moments with offsets are the same when they are one instant; without offsets, when day and
time are the same. A moment with an offset is never one without. -/
def same (s t : Moment) : Bool :=
  match s.offset, t.offset with
  | none, none => s.localMicroseconds = t.localMicroseconds
  | some a, some b => s.localMicroseconds - a = t.localMicroseconds - b
  | _, _ => false

def epochOrdinal : Int := 719163

def ofEpoch? (seconds : Int) (microsecond : Nat) : Option Moment :=
  let ordinal := seconds / 86400 + epochOrdinal
  let inDay := (seconds % 86400).toNat
  if ordinal < 1 then none
  else
    match Date.ofOrdinal? ordinal.toNat,
      Clock.of? (inDay / 3600) (inDay / 60 % 60) (inDay % 60) microsecond with
    | some date, some clock => some ⟨date, clock, some 0⟩
    | _, _ => none

/-- A number of seconds as whole seconds and microseconds in `[0, 1000000)`. The fraction is scaled
to microseconds as a binary number, and then rounded, a half to the even neighbour. -/
def splitSeconds (x : Binary64) : Int × Nat :=
  let whole := x.truncate
  let fraction := (x.numerator - whole * x.denominator).natAbs
  let scaled := Binary64.nearest false (fraction * 1000000) x.denominator
  let micro := roundHalfEven scaled.numerator.natAbs scaled.denominator
  if x.negative then
    if micro = 0 then (whole, 0)
    else (whole - 1, 1000000 - micro)
  else if 1000000 ≤ micro then (whole + 1, micro - 1000000)
  else (whole, micro)

def ofSeconds? (x : Binary64) : Option Moment :=
  if x.isFinite then
    let (seconds, microsecond) := splitSeconds x
    ofEpoch? seconds microsecond
  else none

def ofMilliseconds? (n : Int) : Option Moment :=
  ofSeconds? (.ofRatio n 1000)

def ofBinaryMilliseconds? (x : Binary64) : Option Moment :=
  ofSeconds? (x.divNat 1000)

end Moment

end QueryPipeline
