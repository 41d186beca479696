import QueryPipeline.Number.Shortest
import QueryPipeline.Text.Printable

namespace QueryPipeline.Text

def hex (width n : Nat) : List Char :=
  let digits := Nat.toDigits 16 n
  List.replicate (width - digits.length) '0' ++ digits

def apostrophe : Char := Char.ofNat 39

def backslash : Char := Char.ofNat 92

def quotedChar (quote c : Char) : List Char :=
  if c = quote ∨ c = backslash then [backslash, c]
  else if c = '\n' then [backslash, 'n']
  else if c = '\r' then [backslash, 'r']
  else if c = '\t' then [backslash, 't']
  else if isPrintable c then [c]
  else if c.toNat < 0x100 then backslash :: 'x' :: hex 2 c.toNat
  else if c.toNat < 0x10000 then backslash :: 'u' :: hex 4 c.toNat
  else backslash :: 'U' :: hex 8 c.toNat

/-- Single quotes, unless the text has a single quote and no double one. -/
def quoteFor (cs : List Char) : Char :=
  if cs.contains apostrophe && !cs.contains '"' then '"' else apostrophe

def quoted (s : String) : String :=
  let cs := s.toList
  let quote := quoteFor cs
  String.ofList (quote :: cs.flatMap (quotedChar quote) ++ [quote])

/-- A character of a document: beyond ASCII in units of 16 bits. -/
def documentChar (c : Char) : List Char :=
  if c = '"' ∨ c = backslash then [backslash, c]
  else if c = '\n' then [backslash, 'n']
  else if c = '\r' then [backslash, 'r']
  else if c = '\t' then [backslash, 't']
  else if c.toNat = 0x8 then [backslash, 'b']
  else if c.toNat = 0xc then [backslash, 'f']
  else if 0x20 ≤ c.toNat ∧ c.toNat < 0x7f then [c]
  else if c.toNat < 0x10000 then backslash :: 'u' :: hex 4 c.toNat
  else
    let n := c.toNat - 0x10000
    backslash :: 'u' :: hex 4 (0xd800 + n / 1024) ++ backslash :: 'u' :: hex 4 (0xdc00 + n % 1024)

def documentText (s : String) : String :=
  String.ofList ('"' :: s.toList.flatMap documentChar ++ ['"'])

end QueryPipeline.Text
