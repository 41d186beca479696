import QueryPipeline.Number.Binary64
import QueryPipeline.Text.Blank
import QueryPipeline.Text.Digit

namespace QueryPipeline.Numeral

def isAsciiBlank (c : Char) : Bool :=
  c = ' ' || 9 ≤ c.toNat && c.toNat ≤ 13

/-- A character in ASCII, as far as numerals can use it: a digit of another script is a digit, and a
blank beyond ASCII is a space. -/
def toAscii (c : Char) : Char :=
  if c.toNat < 127 then c
  else if Text.isBlank c then ' '
  else
    match Text.digitValue? c with
    | some d => Nat.digitChar d
    | none => c

def normalize (s : String) : List Char :=
  Text.trimBoth isAsciiBlank (s.toList.map toAscii)

def digit? (c : Char) : Option Nat :=
  if c.isDigit then some (c.toNat - '0'.toNat) else none

/-- Reads digits with single underscores between them, and nothing else. -/
def digits? : List Char → Option (List Nat)
  | [] => none
  | [c] => (digit? c).map ([·])
  | c :: '_' :: rest =>
    match digit? c, digits? rest with
    | some d, some ds => some (d :: ds)
    | _, _ => none
  | c :: rest =>
    match digit? c, digits? rest with
    | some d, some ds => some (d :: ds)
    | _, _ => none

def ofDigits (ds : List Nat) : Nat :=
  ds.foldl (fun n d => 10 * n + d) 0

def sign : List Char → Bool × List Char
  | '-' :: rest => (true, rest)
  | '+' :: rest => (false, rest)
  | cs => (false, cs)

/-- An integer of more digits than this is neither read nor written. -/
def maxDigits : Nat := 4300

def int? (s : String) : Option Int :=
  let (negative, body) := sign (normalize s)
  match digits? body with
  | some ds =>
    if ds.length ≤ maxDigits then
      some (if negative then -(ofDigits ds : Int) else ofDigits ds)
    else none
  | none => none

def dropUnderscores (last : Char) : List Char → Option (List Char)
  | [] => if last = '_' then none else some []
  | c :: rest =>
    if c = '_' then
      if last.isDigit then dropUnderscores c rest else none
    else if last = '_' ∧ !c.isDigit then none
    else (dropUnderscores c rest).map (c :: ·)

def exponent? : List Char → Option Int
  | [] => some 0
  | c :: rest =>
    if c = 'e' ∨ c = 'E' then
      let (negative, body) := sign rest
      match body.mapM digit? with
      | some (d :: ds) =>
        some (if negative then -(ofDigits (d :: ds) : Int) else ofDigits (d :: ds))
      | _ => none
    else none

/-- The number nearest to `ds * 10 ^ power`. Powers that leave the range of the numbers are not
computed. -/
def scaled (negative : Bool) (ds : List Nat) (power : Int) : Binary64 :=
  let significant := ds.dropWhile (· = 0)
  let top : Int := significant.length + power
  if significant = [] ∨ top < -400 then .zero negative
  else if 400 < top then .infinity negative
  else
    .nearest negative (ofDigits significant * Nat.pow 10 power.toNat) (Nat.pow 10 (-power).toNat)

def decimal? (negative : Bool) (cs : List Char) : Option Binary64 :=
  let whole := cs.takeWhile Char.isDigit
  let rest := cs.dropWhile Char.isDigit
  let (fraction, tail) :=
    match rest with
    | '.' :: more => (more.takeWhile Char.isDigit, more.dropWhile Char.isDigit)
    | _ => ([], rest)
  if whole = [] ∧ fraction = [] then none
  else
    match (whole ++ fraction).mapM digit?, exponent? tail with
    | some ds, some e => some (scaled negative ds (e - fraction.length))
    | _, _ => none

def float? (s : String) : Option Binary64 :=
  match dropUnderscores ' ' (normalize s) with
  | none => none
  | some cs =>
    let (negative, body) := sign cs
    let name := String.ofList (body.map Char.toLower)
    if name = "inf" ∨ name = "infinity" then some (.infinity negative)
    else if name = "nan" then some .nan
    else decimal? negative body

end QueryPipeline.Numeral
