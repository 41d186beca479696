import QueryPipeline.Text.Pieces

namespace QueryPipeline.Path

def under (parent child : String) : String :=
  parent ++ "." ++ child

def dotPrefixes : List Char → List (List Char)
  | [] => []
  | c :: rest =>
    if c = '.' then [] :: (dotPrefixes rest).map (c :: ·) else (dotPrefixes rest).map (c :: ·)

/-- The paths that a path lies within, the longest first. -/
def ancestors (path : String) : List String :=
  ((dotPrefixes path.toList).map String.ofList).reverse

def isWithin (ancestor path : String) : Bool :=
  (ancestor.toList ++ ['.']).isPrefixOf path.toList

def splitLast? (path : String) : Option (String × String) :=
  match Text.cutLast? '.' path.toList with
  | some (before, behind) =>
    if before = [] then none else some (String.ofList before, String.ofList behind)
  | none => none

def arrowsToDots : List Char → List Char
  | '-' :: '>' :: rest => '.' :: arrowsToDots rest
  | c :: rest => c :: arrowsToDots rest
  | [] => []

/-- The stored field that a key of a query names. -/
def dotted (key : String) : String :=
  String.ofList (arrowsToDots key.toList)

def beforeArrow : List Char → List Char
  | '-' :: '>' :: _ => []
  | c :: rest => c :: beforeArrow rest
  | [] => []

def root (key : String) : String :=
  String.ofList (beforeArrow key.toList)

end QueryPipeline.Path
