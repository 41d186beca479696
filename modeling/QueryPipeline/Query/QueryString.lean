import QueryPipeline.Text.Percent
import QueryPipeline.Text.Pieces
import QueryPipeline.Value.Basic

namespace QueryPipeline.QueryString

/-- Reads the bracketed parts behind the head of a key: each from a left bracket to the next right
one. `inside` is the part that is open, last character first. A line end at the very end is passed
over. -/
def bracketed? : (inside : Option (List Char)) → List Char → Option (List (List Char))
  | none, [] => some []
  | none, c :: rest =>
    if c = '[' then bracketed? (some []) rest
    else if c = '\n' ∧ rest = [] then some []
    else none
  | some _, [] => none
  | some inside, c :: rest =>
    if c = ']' then (bracketed? none rest).map (inside.reverse :: ·)
    else bracketed? (some (c :: inside)) rest

/-- The segments of a key: the dotted ones of its head and the bracketed ones, without the empty
ones. What is no key of this form is one segment. -/
def splitKey (key : List Char) : List (List Char) :=
  let head := key.takeWhile (· ≠ '[')
  match bracketed? none (key.dropWhile (· ≠ '[')) with
  | none => [key]
  | some parts =>
    if head = [] then [key]
    else
      let segments := (Text.splitOn '.' head ++ parts).filter (· ≠ [])
      if segments = [] then [key] else segments

def mapUnder (entries : Entries Value) (segment : String) : Entries Value :=
  match Entries.get? entries segment with
  | some (.map inner) => inner
  | _ => []

def place : List String → String → Entries Value → Entries Value
  | [], _, entries => entries
  | [segment], text, entries => Entries.put entries segment (.text text)
  | segment :: rest, text, entries =>
    Entries.put entries segment (.map (place rest text (mapUnder entries segment)))

def readPair (pair : List Char) : List String × String :=
  let (key, value) := Text.cutFirst '=' pair
  ((splitKey (Text.unquotePlus key)).map String.ofList,
    String.ofList (Text.unquotePlus (value.getD [])))

def pairs (s : String) : List (List String × String) :=
  let body := s.toList.dropWhile (· = '?')
  ((Text.splitOn '&' body).filter (· ≠ [])).map readPair

def parse (s : String) : Entries Value :=
  (pairs s).foldl (fun entries pair => place pair.1 pair.2 entries) []

end QueryPipeline.QueryString
