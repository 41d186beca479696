import QueryPipeline.Proofs.Text.Utf8
import QueryPipeline.Text.Percent

namespace QueryPipeline.Text

/-- The two ways to write a hexadecimal digit. -/
inductive HexDigit : Nat → Char → Prop where
  | lower {n : Nat} (h : n < 16) : HexDigit n (Nat.digitChar n)
  | upper {n : Nat} (h : n < 16) : HexDigit n (Nat.digitChar n).toUpper

inductive Escaped : List UInt8 → List Char → Prop where
  | nil : Escaped [] []
  | cons {b : UInt8} {bs : List UInt8} {high low : Char} {es : List Char}
    (first : HexDigit (b.toNat / 16) high) (second : HexDigit (b.toNat % 16) low)
    (rest : Escaped bs es) : Escaped (b :: bs) ('%' :: high :: low :: es)

/-- The ways to write a text, where `plain c d` tells that `d` may stand for `c`. -/
inductive Encodes (plain : Char → Char → Prop) : List Char → List Char → Prop where
  | nil : Encodes plain [] []
  | plain {c d : Char} {cs es : List Char} (h : plain c d) (rest : Encodes plain cs es) :
    Encodes plain (c :: cs) (d :: es)
  | escaped {c : Char} {cs ds es : List Char} (h : Escaped (encodeChar c) ds)
    (rest : Encodes plain cs es) : Encodes plain (c :: cs) (ds ++ es)

theorem exists_escaped (bs : List UInt8) : ∃ ds, Escaped bs ds := by
  induction bs with
  | nil => exact ⟨[], .nil⟩
  | cons b bs ih =>
    obtain ⟨ds, hds⟩ := ih
    have hhigh : b.toNat / 16 < 16 := Nat.div_lt_of_lt_mul b.toNat_lt
    have hlow : b.toNat % 16 < 16 := Nat.mod_lt _ (by decide)
    exact ⟨_, .cons (.upper hhigh) (.upper hlow) hds⟩

theorem exists_encodes (plain : Char → Char → Prop) (cs : List Char) :
    ∃ es, Encodes plain cs es := by
  induction cs with
  | nil => exact ⟨[], .nil⟩
  | cons c cs ih =>
    obtain ⟨es, hes⟩ := ih
    obtain ⟨ds, hds⟩ := exists_escaped (encodeChar c)
    exact ⟨ds ++ es, .escaped hds hes⟩

theorem HexDigit.value {n : Nat} {d : Char} (h : HexDigit n d) : hexValue? d = some n := by
  have hdigits : ∀ n < 16, hexValue? (Nat.digitChar n) = some n ∧
      hexValue? (Nat.digitChar n).toUpper = some n := by decide
  cases h with
  | lower h => exact (hdigits n h).1
  | upper h => exact (hdigits n h).2

theorem Escaped.of_mem {bs : List UInt8} {es : List Char} (h : Escaped bs es) {d : Char}
    (hd : d ∈ es) : d = '%' ∨ (hexValue? d).isSome = true := by
  induction h with
  | nil => cases hd
  | cons first second rest ih =>
    simp only [List.mem_cons] at hd
    rcases hd with rfl | rfl | rfl | hd
    · exact .inl rfl
    · exact .inr (by rw [first.value, Option.isSome_some])
    · exact .inr (by rw [second.value, Option.isSome_some])
    · exact ih hd

theorem hexOctet?_of_digits {b : UInt8} {high low : Char} (hhigh : HexDigit (b.toNat / 16) high)
    (hlow : HexDigit (b.toNat % 16) low) : hexOctet? high low = some b := by
  have hvalue : 16 * (b.toNat / 16) + b.toNat % 16 = b.toNat := Nat.div_add_mod _ _
  rw [hexOctet?, hhigh.value, hlow.value]
  dsimp only
  rw [hvalue]
  exact congrArg some UInt8.ofNat_toNat

theorem Escaped.spelled {bs : List UInt8} {ds : List Char} (h : Escaped bs ds) (es : List Char) :
    spelled (ds ++ es) = bs.map .octet ++ spelled es := by
  induction h with
  | nil => rfl
  | cons first second rest ih =>
    rw [List.cons_append, List.cons_append, List.cons_append, Text.spelled,
      hexOctet?_of_digits first second, List.map_cons, List.cons_append, ← ih]

theorem spelled_plain {c : Char} (h : c ≠ '%') (es : List Char) :
    spelled (c :: es) = .ofChar c :: spelled es := by
  rw [spelled]
  intro high low rest hc
  exact absurd hc h

theorem assemble_octets (bs : List UInt8) (run : List UInt8) (rest : List Spelled) :
    assemble run (bs.map .octet ++ rest) = assemble (bs.reverse ++ run) rest := by
  induction bs generalizing run with
  | nil => rfl
  | cons b bs ih =>
    rw [List.map_cons, List.cons_append, assemble, ih, List.reverse_cons, List.append_assoc,
      List.singleton_append]

theorem reverse_encode_concat (cs : List Char) (c : Char) :
    (encode (cs ++ [c])).reverse = (encodeChar c).reverse ++ (encode cs).reverse := by
  rw [encode_append, encode_cons, List.reverse_append, List.reverse_append]
  rfl

/-- What waits to be decoded are the octets of whole characters. -/
theorem assemble_encodes {plain : Char → Char → Prop} {cs es : List Char}
    (hplain : ∀ c d, plain c d → d = c ∧ d ≠ '%') (h : Encodes plain cs es) (before : List Char) :
    assemble (encode before).reverse (spelled es) = before ++ cs := by
  induction h generalizing before with
  | nil => rw [spelled, assemble, List.reverse_reverse, decode_encode, List.append_nil]
  | @plain c d cs es h rest ih =>
    obtain ⟨rfl, hd⟩ := hplain c d h
    rw [spelled_plain hd, Spelled.ofChar]
    split
    · rename_i hascii
      have hwaits : d.toNat.toUInt8 :: (encode before).reverse =
          (encode (before ++ [d])).reverse := by
        rw [reverse_encode_concat, encodeChar, if_pos hascii]
        rfl
      rw [assemble, hwaits, ih, List.append_assoc, List.singleton_append]
    · rw [assemble, List.reverse_reverse, decode_encode]
      exact congrArg (before ++ d :: ·) (ih [])
  | @escaped c cs ds es h rest ih =>
    rw [h.spelled, assemble_octets, ← reverse_encode_concat, ih, List.append_assoc,
      List.singleton_append]

namespace Encodes

variable {plain : Char → Char → Prop} {cs es : List Char}

theorem self (h : ∀ c ∈ cs, plain c c) : Encodes plain cs cs := by
  induction cs with
  | nil => exact .nil
  | cons c rest ih =>
    obtain ⟨hc, hrest⟩ := List.forall_mem_cons.mp h
    exact .plain hc (ih hrest)

theorem not_mem (h : Encodes plain cs es) {d : Char} (hplain : ∀ c, ¬ plain c d)
    (hpercent : d ≠ '%') (hdigit : hexValue? d = none) : d ∉ es := by
  induction h with
  | nil => exact List.not_mem_nil
  | @plain c e cs es h rest ih =>
    rw [List.mem_cons, not_or]
    refine ⟨?_, ih⟩
    rintro rfl
    exact hplain c h
  | escaped h rest ih =>
    rw [List.mem_append, not_or]
    refine ⟨fun hd => ?_, ih⟩
    rcases h.of_mem hd with hd | hd
    · exact hpercent hd
    · rw [hdigit] at hd
      cases hd

/-- Once plus signs are read as spaces, every plain character stands for itself. -/
theorem map_plus (hplain : ∀ c d, plain c d → d ≠ '%' ∧ (if d = '+' then ' ' else d) = c)
    (h : Encodes plain cs es) :
    Encodes (fun c d => d = c ∧ d ≠ '%') cs (es.map fun d => if d = '+' then ' ' else d) := by
  induction h with
  | nil => exact .nil
  | @plain c d cs es h rest ih =>
    obtain ⟨hd, hc⟩ := hplain c d h
    refine .plain ⟨hc, ?_⟩ ih
    dsimp only
    split
    · decide
    · exact hd
  | @escaped c cs ds es h rest ih =>
    have hdigits : (ds.map fun d => if d = '+' then ' ' else d) = ds := by
      refine (List.map_congr_left fun d hd => ?_).trans (List.map_id ds)
      have hplus : d ≠ '+' := by
        rintro rfl
        exact absurd (h.of_mem hd) (by decide)
      rw [if_neg hplus, id]
    rw [List.map_append, hdigits]
    exact .escaped h ih

end Encodes

theorem unquote_encodes {plain : Char → Char → Prop} {cs es : List Char}
    (hplain : ∀ c d, plain c d → d = c ∧ d ≠ '%') (h : Encodes plain cs es) : unquote es = cs :=
  assemble_encodes hplain h []

theorem unquotePlus_encodes {plain : Char → Char → Prop} {cs es : List Char}
    (hplain : ∀ c d, plain c d → d ≠ '%' ∧ (if d = '+' then ' ' else d) = c)
    (h : Encodes plain cs es) : unquotePlus es = cs :=
  unquote_encodes (fun _ _ hd => hd) (h.map_plus hplain)

end QueryPipeline.Text
