namespace QueryPipeline.Text

def splitOn (sep : Char) : List Char → List (List Char)
  | [] => [[]]
  | c :: rest =>
    if c = sep then [] :: splitOn sep rest
    else
      match splitOn sep rest with
      | [] => [[c]]
      | piece :: pieces => (c :: piece) :: pieces

def joinWith (sep : Char) : List (List Char) → List Char
  | [] => []
  | [piece] => piece
  | piece :: next :: pieces => piece ++ sep :: joinWith sep (next :: pieces)

def cutFirst (sep : Char) : List Char → List Char × Option (List Char)
  | [] => ([], none)
  | c :: rest =>
    if c = sep then ([], some rest)
    else
      let (before, behind) := cutFirst sep rest
      (c :: before, behind)

def cutLast? (sep : Char) : List Char → Option (List Char × List Char)
  | [] => none
  | c :: rest =>
    match cutLast? sep rest with
    | some (before, behind) => some (c :: before, behind)
    | none => if c = sep then some ([], rest) else none

theorem splitOn_ne_nil (sep : Char) (cs : List Char) : splitOn sep cs ≠ [] := by
  cases cs with
  | nil => simp [splitOn]
  | cons c rest =>
    by_cases h : c = sep
    · simp [splitOn, h]
    · cases hs : splitOn sep rest <;> simp [splitOn, h, hs]

theorem joinWith_splitOn (sep : Char) (cs : List Char) : joinWith sep (splitOn sep cs) = cs := by
  induction cs with
  | nil => rfl
  | cons c rest ih =>
    cases hs : splitOn sep rest with
    | nil => exact absurd hs (splitOn_ne_nil sep rest)
    | cons piece pieces =>
      rw [hs] at ih
      by_cases h : c = sep
      · simp [splitOn, h, hs, joinWith, ih]
      · cases pieces with
        | nil => simp_all [splitOn, joinWith]
        | cons next pieces => simp_all [splitOn, joinWith]

end QueryPipeline.Text
