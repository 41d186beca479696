import QueryPipeline.Fault

namespace QueryPipeline

inductive AnswerMode where
  | atOnce
  | awaited
  | down
deriving DecidableEq

structure Collection where
  mode : AnswerMode
  answers : List (List Value)
  received : List Value := []

namespace Collection

def rowsFor (c : Collection) (awaits : Bool) : Except Fault (List Value) :=
  match c.mode, awaits with
  | .down, _ => .error .engineDown
  | .atOnce, true => .error (.mismatch .notAwaitable)
  | .awaited, false => .error (.mismatch .notIterable)
  | _, _ => .ok (c.answers.headD [])

/-- A call. The pipeline is received and an answer is used up, whether or not the caller can read
it. -/
def aggregate (c : Collection) (awaits : Bool) (pipeline : Value) :
    Except Fault (List Value) × Collection :=
  (c.rowsFor awaits,
    { c with answers := c.answers.tail, received := c.received ++ [pipeline] })

end Collection

end QueryPipeline
