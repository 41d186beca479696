namespace QueryPipeline

def roundHalfEven (num den : Nat) : Nat :=
  let quotient := num / den
  let remainder := num % den
  if 2 * remainder < den then quotient
  else if den < 2 * remainder then quotient + 1
  else quotient + quotient % 2

/-- The exponent 2047 marks the infinities (fraction zero) and what is not a number. A fraction has
52 bits. -/
structure Binary64 where
  negative : Bool
  exponent : Fin 2048
  fraction : Fin 0x10000000000000
deriving DecidableEq, Inhabited

namespace Binary64

def isFinite (x : Binary64) : Bool :=
  x.exponent.val ≠ 2047

def isNaN (x : Binary64) : Bool :=
  x.exponent.val = 2047 && x.fraction.val ≠ 0

def isZero (x : Binary64) : Bool :=
  x.exponent.val = 0 && x.fraction.val = 0

def zero (negative : Bool) : Binary64 := ⟨negative, 0, 0⟩

def infinity (negative : Bool) : Binary64 := ⟨negative, 2047, 0⟩

def nan : Binary64 := ⟨false, 2047, ⟨0x8000000000000, by decide⟩⟩

/-- A finite number has the magnitude `mantissa * 2 ^ scale`. -/
def mantissa (x : Binary64) : Nat :=
  if x.exponent.val = 0 then x.fraction.val else 0x10000000000000 + x.fraction.val

def scale (x : Binary64) : Int :=
  (max x.exponent.val 1 : Nat) - 1075

def numerator (x : Binary64) : Int :=
  let magnitude : Int := (x.mantissa * Nat.pow 2 x.scale.toNat : Nat)
  if x.negative then -magnitude else magnitude

def denominator (x : Binary64) : Nat :=
  Nat.pow 2 (-x.scale).toNat

/-- The number at distance `n` from zero among the numbers of one sign; past the last finite one
comes infinity. -/
def ofOrdinal (negative : Bool) (n : Nat) : Binary64 :=
  if h : n < 2047 * 0x10000000000000 then
    ⟨negative, ⟨n / 0x10000000000000, by omega⟩,
      ⟨n % 0x10000000000000, Nat.mod_lt _ (by decide)⟩⟩
  else infinity negative

/-- The exponent `e` with `2 ^ e ≤ num / den < 2 ^ (e + 1)`, for positive `num` and `den`. -/
def binade (num den : Nat) : Int :=
  let e : Int := num.log2 - den.log2
  if num * Nat.pow 2 (-e).toNat < den * Nat.pow 2 e.toNat then e - 1 else e

/-- The number nearest to `num / den`; of two nearest ones the one with the even mantissa. -/
def nearest (negative : Bool) (num den : Nat) : Binary64 :=
  if num = 0 then zero negative
  else
    let scale := max (binade num den - 52) (-1074)
    let mantissa :=
      roundHalfEven (num * Nat.pow 2 (-scale).toNat) (den * Nat.pow 2 scale.toNat)
    ofOrdinal negative ((scale + 1074).toNat * 0x10000000000000 + mantissa)

def ofRatio (num : Int) (den : Nat) : Binary64 :=
  nearest (num < 0) num.natAbs den

def ofInt (n : Int) : Binary64 :=
  ofRatio n 1

def truncate (x : Binary64) : Int :=
  x.numerator.tdiv x.denominator

/-- The sum, rounded once. A sum that cancels to zero is positive, unless both parts
are negative. -/
def add (x y : Binary64) : Binary64 :=
  if x.isNaN || y.isNaN then nan
  else if !x.isFinite then
    if !y.isFinite && x.negative != y.negative then nan else x
  else if !y.isFinite then y
  else
    let num := x.numerator * y.denominator + y.numerator * x.denominator
    if num = 0 then zero (x.negative && y.negative)
    else ofRatio num (x.denominator * y.denominator)

def divNat (x : Binary64) (den : Nat) : Binary64 :=
  if !x.isFinite then x
  else nearest x.negative x.numerator.natAbs (x.denominator * den)

/-- Equal as numbers: both zeros are equal, and what is not a number equals nothing. -/
def eq (x y : Binary64) : Bool :=
  if x.isFinite && y.isFinite then x.numerator * y.denominator = y.numerator * x.denominator
  else !x.isNaN && x = y

def eqInt (x : Binary64) (n : Int) : Bool :=
  x.isFinite && x.numerator = n * x.denominator

def leInt (x : Binary64) (n : Int) : Bool :=
  if x.isFinite then x.numerator ≤ n * x.denominator else !x.isNaN && x.negative

def geInt (x : Binary64) (n : Int) : Bool :=
  if x.isFinite then n * x.denominator ≤ x.numerator else !x.isNaN && !x.negative

def le (x y : Binary64) : Bool :=
  if x.isNaN || y.isNaN then false
  else if x.isFinite && y.isFinite then
    x.numerator * y.denominator ≤ y.numerator * x.denominator
  else x = y || (if x.isFinite then !y.negative else x.negative)

def toBits (x : Binary64) : Nat :=
  x.negative.toNat * 0x8000000000000000 + x.exponent.val * 0x10000000000000 + x.fraction.val

def ofBits (word : Nat) : Binary64 where
  negative := word / 0x8000000000000000 % 2 = 1
  exponent := ⟨word / 0x10000000000000 % 2048, Nat.mod_lt _ (by decide)⟩
  fraction := ⟨word % 0x10000000000000, Nat.mod_lt _ (by decide)⟩

theorem ofBits_toBits (x : Binary64) : ofBits x.toBits = x := by
  obtain ⟨negative, ⟨exponent, he⟩, ⟨fraction, hf⟩⟩ := x
  cases negative <;> simp [ofBits, toBits] <;> omega

end Binary64

end QueryPipeline
