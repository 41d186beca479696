import QueryPipeline.Text.Utf8

namespace QueryPipeline.Text

inductive Spelled where
  | octet (b : UInt8)
  | wide (c : Char)

def hexValue? (c : Char) : Option Nat :=
  if '0' ≤ c ∧ c ≤ '9' then some (c.toNat - '0'.toNat)
  else if 'a' ≤ c ∧ c ≤ 'f' then some (c.toNat - 'a'.toNat + 10)
  else if 'A' ≤ c ∧ c ≤ 'F' then some (c.toNat - 'A'.toNat + 10)
  else none

def hexOctet? (high low : Char) : Option UInt8 :=
  match hexValue? high, hexValue? low with
  | some h, some l => some (16 * h + l).toUInt8
  | _, _ => none

def Spelled.ofChar (c : Char) : Spelled :=
  if c.toNat < 0x80 then .octet c.toNat.toUInt8 else .wide c

def spelled : List Char → List Spelled
  | '%' :: high :: low :: rest =>
    match hexOctet? high low with
    | some b => .octet b :: spelled rest
    | none => .octet 0x25 :: spelled (high :: low :: rest)
  | c :: rest => .ofChar c :: spelled rest
  | [] => []

/-- The text of what is spelled, with `run` the octets, last first, that wait to be decoded
together. -/
def assemble (run : List UInt8) : List Spelled → List Char
  | [] => decode run.reverse
  | .octet b :: rest => assemble (b :: run) rest
  | .wide c :: rest => decode run.reverse ++ c :: assemble [] rest

def unquote (cs : List Char) : List Char :=
  assemble [] (spelled cs)

def unquotePlus (cs : List Char) : List Char :=
  unquote (cs.map fun c => if c = '+' then ' ' else c)

end QueryPipeline.Text
