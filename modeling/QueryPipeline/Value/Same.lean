import QueryPipeline.Value.Basic

namespace QueryPipeline.Value

mutual

def sameBy (reflexive : Bool) : Value → Value → Bool
  | .scalar s, .scalar t => s.sameBy reflexive t
  | .list xs, .list ys => sameItems reflexive xs ys
  | .map es, .map fs => es.length = fs.length && sameEntries reflexive es fs
  | .keyed es, .keyed fs => es.length = fs.length && sameKeyed reflexive es fs
  | _, _ => false

def sameItems (reflexive : Bool) : List Value → List Value → Bool
  | [], [] => true
  | x :: xs, y :: ys => sameBy reflexive x y && sameItems reflexive xs ys
  | _, _ => false

def sameEntries (reflexive : Bool) : List (String × Value) → List (String × Value) → Bool
  | [], _ => true
  | (key, v) :: rest, fs =>
    (match Entries.get? fs key with
    | some w => sameBy reflexive v w
    | none => false) && sameEntries reflexive rest fs

def sameKeyed (reflexive : Bool) : List (Scalar × Value) → List (Scalar × Value) → Bool
  | [], _ => true
  | (key, v) :: rest, fs =>
    (match fs.find? fun entry => entry.1.sameBy reflexive key with
    | some entry => sameBy reflexive v entry.2
    | none => false) &&
      sameKeyed reflexive rest (fs.eraseP fun entry => entry.1.sameBy reflexive key)

end

def same (v w : Value) : Bool := sameBy false v w

/-- Is the value equal to itself? What is not a number is not, but a list or a map is, whatever it
holds. -/
def equalsItself : Value → Bool
  | .scalar s => s == s
  | _ => true

end QueryPipeline.Value
