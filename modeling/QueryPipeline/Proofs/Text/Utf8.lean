import QueryPipeline.Text.Utf8

namespace QueryPipeline.Text

section Octets

variable {a b c d : UInt8} (rest : List UInt8)

theorem decode_one (ha : a.toNat < 0x80) :
    decode (a :: rest) = Char.ofNat a.toNat :: decode rest := by
  rw [decode.eq_def]
  dsimp only
  rw [if_pos ha]

theorem decode_two (ha : 0xc2 ≤ a.toNat ∧ a.toNat ≤ 0xdf) (hb : continues b = true) :
    decode (a :: b :: rest) =
      Char.ofNat ((a.toNat - 0xc0) * 64 + payload b) :: decode rest := by
  rw [decode.eq_def]
  dsimp only
  rw [if_neg (by omega), if_pos ha, if_pos hb]

theorem decode_three (ha : 0xe0 ≤ a.toNat ∧ a.toNat ≤ 0xef) (hb : followsThree a b = true)
    (hc : continues c = true) :
    decode (a :: b :: c :: rest) =
      Char.ofNat ((a.toNat - 0xe0) * 4096 + payload b * 64 + payload c) :: decode rest := by
  rw [decode.eq_def]
  dsimp only
  rw [if_neg (by omega), if_neg (by omega), if_pos ha, if_pos hb, if_pos hc]

theorem decode_four (ha : 0xf0 ≤ a.toNat ∧ a.toNat ≤ 0xf4) (hb : followsFour a b = true)
    (hc : continues c = true) (hd : continues d = true) :
    decode (a :: b :: c :: d :: rest) =
      Char.ofNat ((a.toNat - 0xf0) * 262144 + payload b * 4096 + payload c * 64 + payload d) ::
        decode rest := by
  rw [decode.eq_def]
  dsimp only
  rw [if_neg (by omega), if_neg (by omega), if_neg (by omega), if_pos ha, if_pos hb, if_pos hc,
    if_pos hd]

theorem toNat_toUInt8 {n : Nat} (h : n < 256) : n.toUInt8.toNat = n := by
  rw [UInt8.toNat_ofNat', Nat.mod_eq_of_lt h]

theorem continues_low (n : Nat) : continues (0x80 + n % 64).toUInt8 = true := by
  rw [continues, toNat_toUInt8 (by omega), Bool.and_eq_true, decide_eq_true_eq, decide_eq_true_eq]
  omega

theorem payload_low (n : Nat) : payload (0x80 + n % 64).toUInt8 = n % 64 := by
  have h : (0x80 + n % 64).toUInt8.toNat = 0x80 + n % 64 := toNat_toUInt8 (by omega)
  unfold payload
  omega

theorem followsThree_of_valid {n : Nat} (h : 0x800 ≤ n) (h' : n < 0x10000)
    (hvalid : n < 0xd800 ∨ 0xdfff < n) :
    followsThree (0xe0 + n / 4096).toUInt8 (0x80 + n / 64 % 64).toUInt8 = true := by
  rw [followsThree, toNat_toUInt8 (by omega), toNat_toUInt8 (by omega), continues_low]
  split
  · simp only [Bool.and_eq_true, decide_eq_true_eq]
    omega
  · split
    · simp only [Bool.and_eq_true, decide_eq_true_eq]
      omega
    · rfl

theorem followsFour_of_valid {n : Nat} (h : 0x10000 ≤ n) (h' : n < 0x110000) :
    followsFour (0xf0 + n / 262144).toUInt8 (0x80 + n / 4096 % 64).toUInt8 = true := by
  rw [followsFour, toNat_toUInt8 (by omega), toNat_toUInt8 (by omega), continues_low]
  split
  · simp only [Bool.and_eq_true, decide_eq_true_eq]
    omega
  · split
    · simp only [Bool.and_eq_true, decide_eq_true_eq]
      omega
    · rfl

end Octets

theorem decode_encodeChar (c : Char) (rest : List UInt8) :
    decode (encodeChar c ++ rest) = c :: decode rest := by
  have hvalid : c.toNat < 0xd800 ∨ 0xdfff < c.toNat ∧ c.toNat < 0x110000 := c.valid
  have hread {n : Nat} (h : n = c.toNat) : Char.ofNat n :: decode rest = c :: decode rest := by
    rw [h, Char.ofNat_toNat]
  rw [encodeChar]
  split
  · have hfirst : c.toNat.toUInt8.toNat = c.toNat := toNat_toUInt8 (by omega)
    rw [List.singleton_append, decode_one _ (by omega), hfirst, Char.ofNat_toNat]
  · split
    · have hfirst : (0xc0 + c.toNat / 64).toUInt8.toNat = 0xc0 + c.toNat / 64 :=
        toNat_toUInt8 (by omega)
      rw [List.cons_append, List.singleton_append,
        decode_two _ (by rw [hfirst]; omega) (continues_low _), hfirst, payload_low]
      exact hread (by omega)
    · split
      · have hfirst : (0xe0 + c.toNat / 4096).toUInt8.toNat = 0xe0 + c.toNat / 4096 :=
          toNat_toUInt8 (by omega)
        rw [List.cons_append, List.cons_append, List.singleton_append,
          decode_three _ (by rw [hfirst]; omega)
            (followsThree_of_valid (by omega) (by omega) (by omega)) (continues_low _),
          hfirst, payload_low, payload_low]
        exact hread (by omega)
      · have hfirst : (0xf0 + c.toNat / 262144).toUInt8.toNat = 0xf0 + c.toNat / 262144 :=
          toNat_toUInt8 (by omega)
        rw [List.cons_append, List.cons_append, List.cons_append, List.singleton_append,
          decode_four _ (by rw [hfirst]; omega) (followsFour_of_valid (by omega) (by omega))
            (continues_low _) (continues_low _),
          hfirst, payload_low, payload_low, payload_low]
        exact hread (by omega)

theorem encode_cons (c : Char) (cs : List Char) : encode (c :: cs) = encodeChar c ++ encode cs :=
  List.flatMap_cons

theorem encode_append (cs ds : List Char) : encode (cs ++ ds) = encode cs ++ encode ds :=
  List.flatMap_append

theorem decode_encode (cs : List Char) : decode (encode cs) = cs := by
  induction cs with
  | nil => rfl
  | cons c rest ih => rw [encode_cons, decode_encodeChar, ih]

end QueryPipeline.Text
