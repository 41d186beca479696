namespace QueryPipeline.Text

def replacement : Char := '\uFFFD'

def encodeChar (c : Char) : List UInt8 :=
  let n := c.toNat
  if n < 0x80 then [n.toUInt8]
  else if n < 0x800 then [(0xc0 + n / 64).toUInt8, (0x80 + n % 64).toUInt8]
  else if n < 0x10000 then
    [(0xe0 + n / 4096).toUInt8, (0x80 + n / 64 % 64).toUInt8, (0x80 + n % 64).toUInt8]
  else
    [(0xf0 + n / 262144).toUInt8, (0x80 + n / 4096 % 64).toUInt8, (0x80 + n / 64 % 64).toUInt8,
     (0x80 + n % 64).toUInt8]

def encode (cs : List Char) : List UInt8 :=
  cs.flatMap encodeChar

def continues (b : UInt8) : Bool :=
  0x80 ≤ b.toNat && b.toNat ≤ 0xbf

/-- The octets that may follow a first octet of three: no spelling of a shorter character, and no
surrogate. -/
def followsThree (a b : UInt8) : Bool :=
  if a.toNat = 0xe0 then 0xa0 ≤ b.toNat && b.toNat ≤ 0xbf
  else if a.toNat = 0xed then 0x80 ≤ b.toNat && b.toNat ≤ 0x9f
  else continues b

/-- The octets that may follow a first octet of four: no spelling of a shorter character, and
nothing past the last code point. -/
def followsFour (a b : UInt8) : Bool :=
  if a.toNat = 0xf0 then 0x90 ≤ b.toNat && b.toNat ≤ 0xbf
  else if a.toNat = 0xf4 then 0x80 ≤ b.toNat && b.toNat ≤ 0x8f
  else continues b

def payload (b : UInt8) : Nat := b.toNat - 0x80

def decode : List UInt8 → List Char
  | [] => []
  | a :: r₁ =>
    if a.toNat < 0x80 then Char.ofNat a.toNat :: decode r₁
    else if 0xc2 ≤ a.toNat ∧ a.toNat ≤ 0xdf then
      match r₁ with
      | [] => [replacement]
      | b :: r₂ =>
        if continues b then Char.ofNat ((a.toNat - 0xc0) * 64 + payload b) :: decode r₂
        else replacement :: decode (b :: r₂)
    else if 0xe0 ≤ a.toNat ∧ a.toNat ≤ 0xef then
      match r₁ with
      | [] => [replacement]
      | b :: r₂ =>
        if followsThree a b then
          match r₂ with
          | [] => [replacement]
          | c :: r₃ =>
            if continues c then
              Char.ofNat ((a.toNat - 0xe0) * 4096 + payload b * 64 + payload c) :: decode r₃
            else replacement :: decode (c :: r₃)
        else replacement :: decode (b :: r₂)
    else if 0xf0 ≤ a.toNat ∧ a.toNat ≤ 0xf4 then
      match r₁ with
      | [] => [replacement]
      | b :: r₂ =>
        if followsFour a b then
          match r₂ with
          | [] => [replacement]
          | c :: r₃ =>
            if continues c then
              match r₃ with
              | [] => [replacement]
              | d :: r₄ =>
                if continues d then
                  Char.ofNat ((a.toNat - 0xf0) * 262144 + payload b * 4096 + payload c * 64
                    + payload d) :: decode r₄
                else replacement :: decode (d :: r₄)
            else replacement :: decode (c :: r₃)
        else replacement :: decode (b :: r₂)
    else replacement :: decode r₁

end QueryPipeline.Text
