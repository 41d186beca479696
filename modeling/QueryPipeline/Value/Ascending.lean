import QueryPipeline.Value.Shape

namespace QueryPipeline.Scalar

def Number.le : Number → Number → Bool
  | .exact m, .exact n => m ≤ n
  | .exact m, .binary y => y.geInt m
  | .binary x, .exact n => x.leInt n
  | .binary x, .binary y => x.le y

def le? : Scalar → Scalar → Option Bool
  | .text s, .text t => some (decide (s ≤ t))
  | .day d, .day e => some (decide (d.ordinal ≤ e.ordinal))
  | .moment s, .moment t =>
    match s.offset, t.offset with
    | none, none => some (decide (s.localMicroseconds ≤ t.localMicroseconds))
    | some a, some b => some (decide (s.localMicroseconds - a ≤ t.localMicroseconds - b))
    | _, _ => none
  | v, w =>
    match v.number?, w.number? with
    | some x, some y => some (x.le y)
    | _, _ => none

def ascending (members : List Scalar) : Except Mismatch (List Scalar) :=
  if members.length ≤ 1 || members.all (fun s => members.all fun t => (le? s t).isSome) then
    .ok (members.mergeSort fun s t => (le? s t).getD false)
  else .error .notOrdered

end QueryPipeline.Scalar
