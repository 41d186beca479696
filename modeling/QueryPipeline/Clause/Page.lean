import QueryPipeline.Number.Numeral
import QueryPipeline.Settings.Basic
import QueryPipeline.Stage.Basic

namespace QueryPipeline

inductive Page where
  | all
  | window (skip limit : Int)
deriving DecidableEq

namespace Page

/-- The integer that a parameter gives, or none: a binary number is truncated, and a text is read as
an integer or else as a binary number. -/
def toInt? : Value → Option Int
  | .int n => some n
  | .float x => if x.isFinite then some x.truncate else none
  | .text s =>
    match Numeral.int? s with
    | some n => some n
    | none =>
      match Numeral.float? s with
      | some x => if x.isFinite then some x.truncate else none
      | none => none
  | _ => none

/-- An integer other than zero, or `fallback`. -/
def given (fallback : Int) : Option Int → Int
  | some n => if n = 0 then fallback else n
  | none => fallback

def ofNumbers (pageSize : Int) (limit page skip : Option Int) : Page :=
  if limit.any (· ≤ -1) then .all
  else
    let size := given pageSize limit
    let number := max (given 1 page) 1
    match skip with
    | some n => if 0 ≤ n then .window n size else .window (size * (number - 1)) size
    | none => .window (size * (number - 1)) size

def read (settings : Settings) (q : QueryObject) : Page :=
  let number (name : String) := toInt? (q.controlValue name)
  ofNumbers settings.pageSize (number "limit") (number "page") (number "skip")

def stages : Page → List Stage
  | .all => []
  | .window skip limit => [.skip (.int skip), .limit (.int limit)]

end Page

end QueryPipeline
