import QueryPipeline.Number.Binary64

namespace QueryPipeline

/-- The decimal `0.d₁d₂… * 10 ^ point`, without a zero at the end of the digits. -/
structure Decimal where
  digits : List Char
  point : Int

namespace Decimal

def ofScaled (n : Nat) (power : Int) : Decimal :=
  let digits := Nat.toDigits 10 n
  { digits := (digits.reverse.dropWhile (· = '0')).reverse
    point := power + digits.length }

end Decimal

namespace Binary64

/-- Does `n * 10 ^ power` round to the magnitude of `x`? The decimals that do lie between the halves
of the gaps to the neighbours, with the ends when the mantissa is even. -/
def readsBack (x : Binary64) (n : Nat) (power : Int) : Bool :=
  let low :=
    if x.fraction.val = 0 ∧ 1 < x.exponent.val then 4 * x.mantissa - 1 else 4 * x.mantissa - 2
  let high := 4 * x.mantissa + 2
  let unit := Nat.pow 2 (x.scale - 2).toNat * Nat.pow 10 (-power).toNat
  let decimal := n * Nat.pow 10 power.toNat * Nat.pow 2 (2 - x.scale).toNat
  if x.mantissa % 2 = 0 then low * unit ≤ decimal && decimal ≤ high * unit
  else low * unit < decimal && decimal < high * unit

def decade (num den : Nat) : Int :=
  if den ≤ num then (Nat.toDigits 10 (num / den)).length
  else 1 - ((Nat.toDigits 10 ((den - 1) / num)).length : Int)

/-- Of the two multiples of `10 ^ power` next to the magnitude of `x`, the nearer one that reads
back; an exact tie goes to the even multiple. -/
def onGrid? (x : Binary64) (power : Int) : Option Nat :=
  let num := x.numerator.natAbs * Nat.pow 10 (-power).toNat
  let den := x.denominator * Nat.pow 10 power.toNat
  let below := num / den
  match x.readsBack below power, x.readsBack (below + 1) power with
  | false, false => none
  | true, false => some below
  | false, true => some (below + 1)
  | true, true =>
    if 2 * num < (2 * below + 1) * den then some below
    else if (2 * below + 1) * den < 2 * num then some (below + 1)
    else some (below + below % 2)

/-- The shortest decimal of the magnitude of a finite `x` other than zero. Seventeen digits always
suffice; the exact value stands behind them. -/
def shortest (x : Binary64) : Decimal :=
  let top := decade x.numerator.natAbs x.denominator
  let found := (List.range 17).findSome? fun (i : Nat) =>
    let power := top - (i + 1 : Nat)
    (x.onGrid? power).map fun n => Decimal.ofScaled n power
  found.getD <|
    Decimal.ofScaled (x.mantissa * Nat.pow 2 x.scale.toNat * Nat.pow 5 (-x.scale).toNat)
      (min x.scale 0)

end Binary64

structure Layout where
  leastPoint : Int
  greatestPoint : Int
  wholeSuffix : List Char
  exponentDigits : Nat
  infinityText : List Char
  nanText : List Char

namespace Layout

def padded (width n : Nat) : List Char :=
  let digits := Nat.toDigits 10 n
  List.replicate (width - digits.length) '0' ++ digits

def positional (layout : Layout) (d : Decimal) : List Char :=
  let size : Int := d.digits.length
  if d.point ≤ 0 then '0' :: '.' :: List.replicate (-d.point).toNat '0' ++ d.digits
  else if size ≤ d.point then
    d.digits ++ List.replicate (d.point - size).toNat '0' ++ layout.wholeSuffix
  else d.digits.take d.point.toNat ++ '.' :: d.digits.drop d.point.toNat

def scientific (layout : Layout) (d : Decimal) : List Char :=
  let exponent := d.point - 1
  let fraction := d.digits.drop 1
  d.digits.take 1 ++ (if fraction = [] then [] else '.' :: fraction) ++
    'e' :: (if exponent < 0 then '-' else '+') :: padded layout.exponentDigits exponent.natAbs

def decimal (layout : Layout) (d : Decimal) : List Char :=
  if layout.leastPoint ≤ d.point ∧ d.point ≤ layout.greatestPoint then layout.positional d
  else layout.scientific d

def write (layout : Layout) (x : Binary64) : List Char :=
  if x.isNaN then layout.nanText
  else
    (if x.negative then ['-'] else []) ++
      (if !x.isFinite then layout.infinityText
      else if x.isZero then '0' :: layout.wholeSuffix
      else layout.decimal x.shortest)

end Layout

end QueryPipeline
