import QueryPipeline.Calendar.Moment
import QueryPipeline.Number.Binary64

namespace QueryPipeline

inductive Scalar where
  | null
  | bool (b : Bool)
  | int (n : Int)
  | float (x : Binary64)
  | text (s : String)
  | moment (t : Moment)
  | day (d : Date)
deriving Inhabited

namespace Scalar

def truthy : Scalar → Bool
  | .null => false
  | .bool b => b
  | .int n => n ≠ 0
  | .float x => !x.isZero
  | .text s => s ≠ ""
  | .moment _ => true
  | .day _ => true

def typeName : Scalar → String
  | .null => "NoneType"
  | .bool _ => "bool"
  | .int _ => "int"
  | .float _ => "float"
  | .text _ => "str"
  | .moment _ => "datetime"
  | .day _ => "date"

inductive Number where
  | exact (n : Int)
  | binary (x : Binary64)

def number? : Scalar → Option Number
  | .bool b => some (.exact b.toInt)
  | .int n => some (.exact n)
  | .float x => some (.binary x)
  | _ => none

/-- Equal by value. With `reflexive`, what is not a number is equal to itself: so compares a value
with itself. -/
def Number.same (reflexive : Bool) : Number → Number → Bool
  | .exact m, .exact n => m = n
  | .exact m, .binary y => y.eqInt m
  | .binary x, .exact n => x.eqInt n
  | .binary x, .binary y => x.eq y || (reflexive && x.isNaN && y.isNaN)

def sameBy (reflexive : Bool) : Scalar → Scalar → Bool
  | .null, .null => true
  | .text s, .text t => s = t
  | .moment s, .moment t => s.same t
  | .day d, .day e => d = e
  | v, w =>
    match v.number?, w.number? with
    | some x, some y => x.same reflexive y
    | _, _ => false

def same (v w : Scalar) : Bool := sameBy false v w

instance : BEq Scalar := ⟨same⟩

instance : Coe String Scalar := ⟨text⟩

@[simp] theorem text_beq_text (s t : String) : (text s == text t) = (s == t) := by
  change decide (s = t) = (s == t)
  by_cases h : s = t <;> simp [h]

end Scalar

end QueryPipeline
