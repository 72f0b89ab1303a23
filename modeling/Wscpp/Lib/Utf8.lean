import Mathlib.Data.List.Basic

/-!
# UTF-8 byte strings

The definition of well-formed UTF-8 is the encoder: a byte string is valid when it is the encoding
of some list of Unicode scalar values (`ValidUtf8`).  A scanner works instead on the shape of the
bytes.  This file connects the two: `Encoded` lists the byte shapes of one encoded scalar value,
`encoded_encode` and `Encoded.exists_encode` say that they are exactly the encodings of characters,
and the cons and append laws (`ValidUtf8.exists_encoded`, `validUtf8_encoded_append`) let a scanner
peel one character at a time.

The shapes are prefix-free (`Encoded.eq_of_append_eq`), which is what makes the peeling exact.
-/

namespace Wscpp.Utf8

/-! ## Encodings of lists of scalar values -/

/-- A byte string is valid UTF-8 when it encodes some list of Unicode scalar values. -/
def ValidUtf8 (bs : List UInt8) : Prop :=
  ∃ cs : List Char, bs = cs.flatMap String.utf8EncodeChar

lemma validUtf8_nil : ValidUtf8 [] := ⟨[], rfl⟩

lemma ValidUtf8.append {a b : List UInt8} (ha : ValidUtf8 a) (hb : ValidUtf8 b) :
    ValidUtf8 (a ++ b) := by
  obtain ⟨cs, rfl⟩ := ha
  obtain ⟨ds, rfl⟩ := hb
  exact ⟨cs ++ ds, by simp⟩

/-! ## The shapes of one encoded character -/

/-- A continuation byte. -/
def Tail (b : UInt8) : Prop := 0x80 ≤ b.toNat ∧ b.toNat ≤ 0xBF

/-- The byte strings of one encoded scalar value: no overlong form, no surrogate, nothing
above U+10FFFF. -/
inductive Encoded : List UInt8 → Prop
  | one {a : UInt8} : a.toNat ≤ 0x7F → Encoded [a]
  | two {a b : UInt8} : 0xC2 ≤ a.toNat → a.toNat ≤ 0xDF → Tail b → Encoded [a, b]
  | three {a b c : UInt8} : 0xE0 ≤ a.toNat → a.toNat ≤ 0xEF → Tail b → Tail c →
      (a.toNat = 0xE0 → 0xA0 ≤ b.toNat) → (a.toNat = 0xED → b.toNat < 0xA0) → Encoded [a, b, c]
  | four {a b c d : UInt8} : 0xF0 ≤ a.toNat → a.toNat ≤ 0xF4 → Tail b → Tail c → Tail d →
      (a.toNat = 0xF0 → 0x90 ≤ b.toNat) → (a.toNat = 0xF4 → b.toNat < 0x90) →
      Encoded [a, b, c, d]

lemma toNat_ofNat_of_lt {n : ℕ} (h : n < 256) : (UInt8.ofNat n).toNat = n := by
  rw [UInt8.toNat_ofNat']
  omega

lemma char_bounds (c : Char) :
    c.val.toNat < 0xD800 ∨ (0xDFFF < c.val.toNat ∧ c.val.toNat < 0x110000) := c.valid

lemma encoded_encode (c : Char) : Encoded (String.utf8EncodeChar c) := by
  have hc := char_bounds c
  simp only [String.utf8EncodeChar]
  generalize c.val.toNat = v at hc ⊢
  split
  · exact .one (by rw [toNat_ofNat_of_lt (by omega)]; omega)
  · split
    · refine .two ?_ ?_ ⟨?_, ?_⟩ <;> rw [toNat_ofNat_of_lt (by omega)] <;> omega
    · split
      · refine .three ?_ ?_ ⟨?_, ?_⟩ ⟨?_, ?_⟩ ?_ ?_ <;>
          simp only [toNat_ofNat_of_lt (show v / 4096 % 16 + 224 < 256 by omega),
            toNat_ofNat_of_lt (show v / 64 % 64 + 128 < 256 by omega),
            toNat_ofNat_of_lt (show v % 64 + 128 < 256 by omega)] <;> omega
      · refine .four ?_ ?_ ⟨?_, ?_⟩ ⟨?_, ?_⟩ ⟨?_, ?_⟩ ?_ ?_ <;>
          simp only [toNat_ofNat_of_lt (show v / 262144 % 8 + 240 < 256 by omega),
            toNat_ofNat_of_lt (show v / 4096 % 64 + 128 < 256 by omega),
            toNat_ofNat_of_lt (show v / 64 % 64 + 128 < 256 by omega),
            toNat_ofNat_of_lt (show v % 64 + 128 < 256 by omega)] <;> omega

lemma exists_char {n : ℕ} (h : n < 0xD800 ∨ (0xDFFF < n ∧ n < 0x110000)) :
    ∃ c : Char, c.val.toNat = n := by
  have hn : (UInt32.ofNat n).toNat = n := by
    rw [UInt32.toNat_ofNat']
    omega
  refine ⟨⟨UInt32.ofNat n, ?_⟩, hn⟩
  rw [UInt32.isValidChar, hn]
  exact h

lemma byte_eq {n : ℕ} {b : UInt8} (h : n = b.toNat) : UInt8.ofNat n = b := by
  rw [h, UInt8.ofNat_toNat]

lemma Encoded.exists_encode {u : List UInt8} (h : Encoded u) :
    ∃ c : Char, String.utf8EncodeChar c = u := by
  cases h with
  | one ha =>
      rename_i a
      obtain ⟨c, hc⟩ := exists_char (n := a.toNat) (by omega)
      refine ⟨c, ?_⟩
      simp only [String.utf8EncodeChar, hc]
      rw [if_pos (by omega), byte_eq rfl]
  | two ha ha' hb =>
      rename_i a b
      obtain ⟨hb, hb'⟩ := hb
      obtain ⟨c, hc⟩ := exists_char (n := (a.toNat - 0xC0) * 64 + (b.toNat - 0x80)) (by omega)
      refine ⟨c, ?_⟩
      simp only [String.utf8EncodeChar, hc]
      rw [if_neg (by omega), if_pos (by omega)]
      rw [byte_eq (b := a) (by omega), byte_eq (b := b) (by omega)]
  | three ha ha' hb hc h0 hd =>
      rename_i a b d
      obtain ⟨hb, hb'⟩ := hb
      obtain ⟨hc, hc'⟩ := hc
      -- the second byte keeps out the surrogates and the overlong forms
      have ha2 : a.toNat ≠ 0xED ∨ b.toNat < 0xA0 := by
        by_cases h : a.toNat = 0xED
        · exact .inr (hd h)
        · exact .inl h
      have ha3 : a.toNat ≠ 0xE0 ∨ 0xA0 ≤ b.toNat := by
        by_cases h : a.toNat = 0xE0
        · exact .inr (h0 h)
        · exact .inl h
      obtain ⟨c, hn⟩ := exists_char
        (n := (a.toNat - 0xE0) * 4096 + (b.toNat - 0x80) * 64 + (d.toNat - 0x80)) (by omega)
      refine ⟨c, ?_⟩
      simp only [String.utf8EncodeChar, hn]
      rw [if_neg (by omega), if_neg (by omega), if_pos (by omega)]
      rw [byte_eq (b := a) (by omega), byte_eq (b := b) (by omega), byte_eq (b := d) (by omega)]
  | four ha ha' hb hc hd h0 h4 =>
      rename_i a b d e
      obtain ⟨hb, hb'⟩ := hb
      obtain ⟨hc, hc'⟩ := hc
      obtain ⟨hd, hd'⟩ := hd
      -- the second byte keeps out the overlong forms and what is beyond U+10FFFF
      have ha2 : a.toNat ≠ 0xF0 ∨ 0x90 ≤ b.toNat := by
        by_cases h : a.toNat = 0xF0
        · exact .inr (h0 h)
        · exact .inl h
      have ha3 : a.toNat ≠ 0xF4 ∨ b.toNat < 0x90 := by
        by_cases h : a.toNat = 0xF4
        · exact .inr (h4 h)
        · exact .inl h
      obtain ⟨c, hn⟩ := exists_char
        (n := (a.toNat - 0xF0) * 262144 + (b.toNat - 0x80) * 4096 + (d.toNat - 0x80) * 64
          + (e.toNat - 0x80)) (by omega)
      refine ⟨c, ?_⟩
      simp only [String.utf8EncodeChar, hn]
      rw [if_neg (by omega), if_neg (by omega), if_neg (by omega)]
      rw [byte_eq (b := a) (by omega), byte_eq (b := b) (by omega), byte_eq (b := d) (by omega),
        byte_eq (b := e) (by omega)]

/-! ## Peeling one character -/

lemma Encoded.ne_nil {u : List UInt8} (h : Encoded u) : u ≠ [] := by
  cases h <;> simp

/-- The first byte fixes the length, so no shape is a proper prefix of another. -/
lemma Encoded.eq_of_append_eq {u v r s : List UInt8} (hu : Encoded u) (hv : Encoded v)
    (h : u ++ r = v ++ s) : u = v ∧ r = s := by
  cases hu <;> cases hv <;> simp only [List.cons_append, List.nil_append, List.cons.injEq] at h
  all_goals obtain ⟨rfl, h⟩ := h
  all_goals first
    | (exfalso; omega)
    | simp_all

lemma Encoded.valid {u : List UInt8} (h : Encoded u) : ValidUtf8 u := by
  obtain ⟨c, rfl⟩ := h.exists_encode
  exact ⟨[c], by simp⟩

lemma ValidUtf8.exists_encoded {bs : List UInt8} (h : ValidUtf8 bs) (hne : bs ≠ []) :
    ∃ u rest, bs = u ++ rest ∧ Encoded u ∧ ValidUtf8 rest := by
  obtain ⟨cs, rfl⟩ := h
  cases cs with
  | nil => exact absurd rfl hne
  | cons c cs =>
      exact ⟨String.utf8EncodeChar c, cs.flatMap String.utf8EncodeChar, by simp, encoded_encode c,
        cs, rfl⟩

/-- **Peeling**: behind one character, validity is validity of the rest. -/
lemma validUtf8_encoded_append {u rest : List UInt8} (hu : Encoded u) :
    ValidUtf8 (u ++ rest) ↔ ValidUtf8 rest := by
  constructor
  · intro h
    obtain ⟨v, s, heq, hv, hs⟩ := h.exists_encoded (by simp [hu.ne_nil])
    obtain ⟨-, rfl⟩ := hu.eq_of_append_eq hv heq
    exact hs
  · exact hu.valid.append

/-- **One character at a time**: a valid string with first byte `a` has one of the four shapes
in front, and the first byte says which. -/
lemma validUtf8_cons_iff {a : UInt8} {rest : List UInt8} : ValidUtf8 (a :: rest) ↔
    (a.toNat ≤ 0x7F ∧ ValidUtf8 rest) ∨
    (∃ b r, rest = b :: r ∧ 0xC2 ≤ a.toNat ∧ a.toNat ≤ 0xDF ∧ Tail b ∧ ValidUtf8 r) ∨
    (∃ b c r, rest = b :: c :: r ∧ 0xE0 ≤ a.toNat ∧ a.toNat ≤ 0xEF ∧ Tail b ∧ Tail c ∧
      (a.toNat = 0xE0 → 0xA0 ≤ b.toNat) ∧ (a.toNat = 0xED → b.toNat < 0xA0) ∧ ValidUtf8 r) ∨
    (∃ b c d r, rest = b :: c :: d :: r ∧ 0xF0 ≤ a.toNat ∧ a.toNat ≤ 0xF4 ∧ Tail b ∧ Tail c ∧
      Tail d ∧ (a.toNat = 0xF0 → 0x90 ≤ b.toNat) ∧ (a.toNat = 0xF4 → b.toNat < 0x90) ∧
      ValidUtf8 r) := by
  constructor
  · intro h
    obtain ⟨v, s, heq, hv, hs⟩ := h.exists_encoded (by simp)
    cases hv with
    | one ha =>
        simp only [List.cons_append, List.nil_append, List.cons.injEq] at heq
        obtain ⟨rfl, rfl⟩ := heq
        exact .inl ⟨ha, hs⟩
    | two ha ha' hb =>
        simp only [List.cons_append, List.nil_append, List.cons.injEq] at heq
        obtain ⟨rfl, rfl⟩ := heq
        exact .inr (.inl ⟨_, _, rfl, ha, ha', hb, hs⟩)
    | three ha ha' hb hc h0 hd =>
        simp only [List.cons_append, List.nil_append, List.cons.injEq] at heq
        obtain ⟨rfl, rfl⟩ := heq
        exact .inr (.inr (.inl ⟨_, _, _, rfl, ha, ha', hb, hc, h0, hd, hs⟩))
    | four ha ha' hb hc hd h0 h4 =>
        simp only [List.cons_append, List.nil_append, List.cons.injEq] at heq
        obtain ⟨rfl, rfl⟩ := heq
        exact .inr (.inr (.inr ⟨_, _, _, _, rfl, ha, ha', hb, hc, hd, h0, h4, hs⟩))
  · rintro (⟨ha, hs⟩ | ⟨b, r, rfl, ha, ha', hb, hs⟩ | ⟨b, c, r, rfl, ha, ha', hb, hc, h0, hd, hs⟩ |
      ⟨b, c, d, r, rfl, ha, ha', hb, hc, hd, h0, h4, hs⟩)
    · exact (validUtf8_encoded_append (.one ha)).mpr hs
    · exact (validUtf8_encoded_append (.two ha ha' hb)).mpr hs
    · exact (validUtf8_encoded_append (.three ha ha' hb hc h0 hd)).mpr hs
    · exact (validUtf8_encoded_append (.four ha ha' hb hc hd h0 h4)).mpr hs

/-! ## Strings -/

/-- The bytes of a string. -/
def strBytes (s : String) : List UInt8 := s.toUTF8.data.toList

lemma validUtf8_strBytes (s : String) : ValidUtf8 (strBytes s) := by
  obtain ⟨cs, h⟩ := s.isValidUTF8
  refine ⟨cs, ?_⟩
  rw [strBytes, String.toUTF8_eq_toByteArray, h, List.utf8Encode, List.data_toByteArray]

end Wscpp.Utf8
