import Wscpp.Lib.Utf8
import Wscpp.Lib.Words
import Mathlib.Tactic.SplitIfs
import Mathlib.Tactic.Tauto

/-!
# Text validation

`detail/utf8.hpp` and its port `utf8.rs` check a text message: an eight-byte ASCII fast path,
then a byte-by-byte loop that accepts one character at a time.  `isValidUtf8` transcribes
both; wscpp loads the eight bytes with `memcpy`, so the byte order of the host is a parameter
again, and ws-rs is the little-endian instance.

`isValidUtf8_iff` says that the check accepts exactly the encodings of lists of Unicode scalar
values.  The fast path only skips whole characters (`scalarLoop_asciiSkip`), and each turn of
the loop peels one character (`scalarLoop_iff`).

`fromUtf8Lossy` is Rust's `String::from_utf8_lossy`, which `parse_close_payload` applies to a
peer's close reason: characters are copied and each maximal ill-formed piece becomes U+FFFD.
On valid input it is the identity (`fromUtf8Lossy_of_valid`).
-/

namespace Wscpp

open Words Utf8

/-! ## `is_valid_utf8` -/

/-- The ASCII fast path: skip eight bytes while none of them has its top bit set.  The first
argument bounds the number of turns. -/
def asciiSkip (e : Endian) : ℕ → List UInt8 → List UInt8
  | 0, bs => bs
  | n + 1, bs =>
      if 8 ≤ bs.length then
        if load e (bs.take 8) &&& 0x8080808080808080 ≠ 0 then bs
        else asciiSkip e n (bs.drop 8)
      else bs

/-- The scalar loop, one character a turn. -/
def scalarLoop : List UInt8 → Bool
  | [] => true
  | c :: rest =>
      if c ≤ 0x7F then scalarLoop rest
      else if 0xC2 ≤ c ∧ c ≤ 0xDF then
        match rest with
        | c1 :: rest => if c1 &&& 0xC0 ≠ 0x80 then false else scalarLoop rest
        | [] => false
      else if 0xE0 ≤ c ∧ c ≤ 0xEF then
        match rest with
        | c1 :: c2 :: rest =>
            if c1 &&& 0xC0 ≠ 0x80 ∨ c2 &&& 0xC0 ≠ 0x80 then false
            else if c = 0xE0 ∧ c1 < 0xA0 then false
            else if c = 0xED ∧ 0xA0 ≤ c1 then false
            else scalarLoop rest
        | _ => false
      else if 0xF0 ≤ c ∧ c ≤ 0xF4 then
        match rest with
        | c1 :: c2 :: c3 :: rest =>
            if c1 &&& 0xC0 ≠ 0x80 ∨ c2 &&& 0xC0 ≠ 0x80 ∨ c3 &&& 0xC0 ≠ 0x80 then false
            else if c = 0xF0 ∧ c1 < 0x90 then false
            else if c = 0xF4 ∧ 0x90 ≤ c1 then false
            else scalarLoop rest
        | _ => false
      else false

/-- `is_valid_utf8`. -/
def isValidUtf8 (e : Endian) (data : List UInt8) : Bool :=
  scalarLoop (asciiSkip e data.length data)

lemma and_c0_eq_80_iff (b : UInt8) : b &&& 0xC0 = 0x80 ↔ Tail b := by
  have table : ∀ n : Fin 256, UInt8.ofNat n &&& 0xC0 = 0x80 ↔ 0x80 ≤ n.val ∧ n.val ≤ 0xBF := by
    decide +kernel
  simpa [Tail] using table ⟨b.toNat, b.toNat_lt⟩

lemma and_80_eq_zero_iff (b : UInt8) : b &&& 0x80 = 0 ↔ b.toNat ≤ 0x7F := by
  have table : ∀ n : Fin 256, UInt8.ofNat n &&& 0x80 = 0 ↔ n.val ≤ 0x7F := by
    decide +kernel
  simpa using table ⟨b.toNat, b.toNat_lt⟩

lemma le_iff_toNat {a b : UInt8} : a ≤ b ↔ a.toNat ≤ b.toNat := UInt8.le_iff_toNat_le

lemma lt_iff_toNat {a b : UInt8} : a < b ↔ a.toNat < b.toNat := UInt8.lt_iff_toNat_lt

lemma eq_iff_toNat {a b : UInt8} : a = b ↔ a.toNat = b.toNat := UInt8.toNat_inj.symm

lemma not_and_lt_iff {c b u v : UInt8} :
    ¬(c = u ∧ b < v) ↔ (c.toNat = u.toNat → v.toNat ≤ b.toNat) := by
  rw [not_and, eq_iff_toNat, lt_iff_toNat, Nat.not_lt]

lemma not_and_le_iff {c b u v : UInt8} :
    ¬(c = u ∧ v ≤ b) ↔ (c.toNat = u.toNat → b.toNat < v.toNat) := by
  rw [not_and, eq_iff_toNat, le_iff_toNat, Nat.not_le]

/-- What validity of a string says about a given first byte: the alternatives of
`validUtf8_cons_iff` whose range does not contain the byte fall away. -/
lemma validUtf8_cons_two {c : UInt8} (h : 0xC2 ≤ c ∧ c ≤ 0xDF) {rest : List UInt8} :
    ValidUtf8 (c :: rest) ↔ ∃ b r, rest = b :: r ∧ Tail b ∧ ValidUtf8 r := by
  have hlow : 0xC2 ≤ c.toNat := le_iff_toNat.mp h.1
  have hhigh : c.toNat ≤ 0xDF := le_iff_toNat.mp h.2
  rw [validUtf8_cons_iff]
  constructor
  · rintro (⟨ha, -⟩ | ⟨b, r, heq, -, -, hb, hr⟩ | ⟨_, _, _, -, ha, -⟩ | ⟨_, _, _, _, -, ha, -⟩)
    · omega
    · exact ⟨b, r, heq, hb, hr⟩
    · omega
    · omega
  · rintro ⟨b, r, heq, hb, hr⟩
    exact .inr (.inl ⟨b, r, heq, hlow, hhigh, hb, hr⟩)

lemma validUtf8_cons_three {c : UInt8} (h : 0xE0 ≤ c ∧ c ≤ 0xEF) {rest : List UInt8} :
    ValidUtf8 (c :: rest) ↔ ∃ b d r, rest = b :: d :: r ∧ Tail b ∧ Tail d ∧
      (c.toNat = 0xE0 → 0xA0 ≤ b.toNat) ∧ (c.toNat = 0xED → b.toNat < 0xA0) ∧ ValidUtf8 r := by
  have hlow : 0xE0 ≤ c.toNat := le_iff_toNat.mp h.1
  have hhigh : c.toNat ≤ 0xEF := le_iff_toNat.mp h.2
  rw [validUtf8_cons_iff]
  constructor
  · rintro (⟨ha, -⟩ | ⟨_, _, -, -, ha, -⟩ | ⟨b, d, r, heq, -, -, hr⟩ | ⟨_, _, _, _, -, ha, -⟩)
    · omega
    · omega
    · exact ⟨b, d, r, heq, hr⟩
    · omega
  · rintro ⟨b, d, r, heq, hr⟩
    exact .inr (.inr (.inl ⟨b, d, r, heq, hlow, hhigh, hr⟩))

lemma validUtf8_cons_four {c : UInt8} (h : 0xF0 ≤ c ∧ c ≤ 0xF4) {rest : List UInt8} :
    ValidUtf8 (c :: rest) ↔ ∃ b d e r, rest = b :: d :: e :: r ∧ Tail b ∧ Tail d ∧ Tail e ∧
      (c.toNat = 0xF0 → 0x90 ≤ b.toNat) ∧ (c.toNat = 0xF4 → b.toNat < 0x90) ∧ ValidUtf8 r := by
  have hlow : 0xF0 ≤ c.toNat := le_iff_toNat.mp h.1
  have hhigh : c.toNat ≤ 0xF4 := le_iff_toNat.mp h.2
  rw [validUtf8_cons_iff]
  constructor
  · rintro (⟨ha, -⟩ | ⟨_, _, -, -, ha, -⟩ | ⟨_, _, _, -, -, ha, -⟩ | ⟨b, d, e, r, heq, -, -, hr⟩)
    · omega
    · omega
    · omega
    · exact ⟨b, d, e, r, heq, hr⟩
  · rintro ⟨b, d, e, r, heq, hr⟩
    exact .inr (.inr (.inr ⟨b, d, e, r, heq, hlow, hhigh, hr⟩))

lemma not_le_of_ge {c u v : UInt8} (h : u ≤ c) (hlt : v < u) : ¬c ≤ v :=
  UInt8.not_le.mpr (UInt8.lt_of_lt_of_le hlt h)

lemma scalarLoop_cons_two {c : UInt8} (h : 0xC2 ≤ c ∧ c ≤ 0xDF) {rest : List UInt8} :
    scalarLoop (c :: rest) = true ↔ ∃ b r, rest = b :: r ∧ Tail b ∧ scalarLoop r = true := by
  have hone : ¬c ≤ 0x7F := not_le_of_ge h.1 (by decide)
  rw [scalarLoop.eq_def]
  simp only [if_neg hone, if_pos h]
  cases rest with
  | nil => simp
  | cons b r => simp [← and_c0_eq_80_iff]

lemma scalarLoop_cons_three {c : UInt8} (h : 0xE0 ≤ c ∧ c ≤ 0xEF) {rest : List UInt8} :
    scalarLoop (c :: rest) = true ↔ ∃ b d r, rest = b :: d :: r ∧ Tail b ∧ Tail d ∧
      (c.toNat = 0xE0 → 0xA0 ≤ b.toNat) ∧ (c.toNat = 0xED → b.toNat < 0xA0) ∧
        scalarLoop r = true := by
  have htwo : ¬(0xC2 ≤ c ∧ c ≤ 0xDF) := fun hc => not_le_of_ge h.1 (by decide) hc.2
  have hone : ¬c ≤ 0x7F := not_le_of_ge h.1 (by decide)
  rw [scalarLoop.eq_def]
  simp only [if_neg hone, if_neg htwo, if_pos h]
  rcases rest with _ | ⟨b, _ | ⟨d, r⟩⟩
  · simp
  · simp
  · dsimp only
    constructor
    · intro hloop
      split_ifs at hloop with hbad hlow hhigh
      simp only [ne_eq, not_or, not_not, and_c0_eq_80_iff] at hbad
      exact ⟨b, d, r, rfl, hbad.1, hbad.2, not_and_lt_iff.mp hlow, not_and_le_iff.mp hhigh, hloop⟩
    · rintro ⟨b', d', r', heq, hb, hd, hlow, hhigh, hr⟩
      simp only [List.cons.injEq] at heq
      obtain ⟨rfl, rfl, rfl⟩ := heq
      rw [if_neg (by simp [and_c0_eq_80_iff, hb, hd]), if_neg (not_and_lt_iff.mpr hlow),
        if_neg (not_and_le_iff.mpr hhigh), hr]

lemma scalarLoop_cons_four {c : UInt8} (h : 0xF0 ≤ c ∧ c ≤ 0xF4) {rest : List UInt8} :
    scalarLoop (c :: rest) = true ↔ ∃ b d e r, rest = b :: d :: e :: r ∧ Tail b ∧ Tail d ∧
      Tail e ∧ (c.toNat = 0xF0 → 0x90 ≤ b.toNat) ∧ (c.toNat = 0xF4 → b.toNat < 0x90) ∧
        scalarLoop r = true := by
  have htwo : ¬(0xC2 ≤ c ∧ c ≤ 0xDF) := fun hc => not_le_of_ge h.1 (by decide) hc.2
  have hthree : ¬(0xE0 ≤ c ∧ c ≤ 0xEF) := fun hc => not_le_of_ge h.1 (by decide) hc.2
  have hone : ¬c ≤ 0x7F := not_le_of_ge h.1 (by decide)
  rw [scalarLoop.eq_def]
  simp only [if_neg hone, if_neg htwo, if_neg hthree, if_pos h]
  rcases rest with _ | ⟨b, _ | ⟨d, _ | ⟨e, r⟩⟩⟩
  · simp
  · simp
  · simp
  · dsimp only
    constructor
    · intro hloop
      split_ifs at hloop with hbad hlow hhigh
      simp only [ne_eq, not_or, not_not, and_c0_eq_80_iff] at hbad
      exact ⟨b, d, e, r, rfl, hbad.1, hbad.2.1, hbad.2.2, not_and_lt_iff.mp hlow,
        not_and_le_iff.mp hhigh, hloop⟩
    · rintro ⟨b', d', e', r', heq, hb, hd, he, hlow, hhigh, hr⟩
      simp only [List.cons.injEq] at heq
      obtain ⟨rfl, rfl, rfl, rfl⟩ := heq
      rw [if_neg (by simp [and_c0_eq_80_iff, hb, hd, he]), if_neg (not_and_lt_iff.mpr hlow),
        if_neg (not_and_le_iff.mpr hhigh), hr]

/-- A first byte outside the ranges begins no character. -/
lemma not_validUtf8_cons {c : UInt8} {rest : List UInt8} (hone : ¬c ≤ 0x7F)
    (htwo : ¬(0xC2 ≤ c ∧ c ≤ 0xDF)) (hthree : ¬(0xE0 ≤ c ∧ c ≤ 0xEF))
    (hfour : ¬(0xF0 ≤ c ∧ c ≤ 0xF4)) : ¬ValidUtf8 (c :: rest) := by
  rw [validUtf8_cons_iff]
  rintro (⟨ha, -⟩ | ⟨_, _, -, ha, ha', -⟩ | ⟨_, _, _, -, ha, ha', -⟩ |
    ⟨_, _, _, _, -, ha, ha', -⟩)
  · exact hone (le_iff_toNat.mpr ha)
  · exact htwo ⟨le_iff_toNat.mpr ha, le_iff_toNat.mpr ha'⟩
  · exact hthree ⟨le_iff_toNat.mpr ha, le_iff_toNat.mpr ha'⟩
  · exact hfour ⟨le_iff_toNat.mpr ha, le_iff_toNat.mpr ha'⟩

/-- **The scalar loop accepts exactly valid UTF-8.**  Each branch of the loop is one character
shape; a byte string that begins with no shape is refused. -/
lemma scalarLoop_iff (bs : List UInt8) : scalarLoop bs = true ↔ ValidUtf8 bs := by
  -- what follows the first character is shorter by one byte at least
  induction hn : bs.length using Nat.strong_induction_on generalizing bs with
  | _ n ih =>
  subst hn
  rcases bs with _ | ⟨c, rest⟩
  · simp [scalarLoop, validUtf8_nil]
  by_cases hone : c ≤ 0x7F
  · have hrest := ih rest.length (by simp) rest rfl
    rw [scalarLoop.eq_def]
    simp only [if_pos hone, hrest]
    exact (validUtf8_encoded_append (.one (le_iff_toNat.mp hone))).symm
  by_cases htwo : 0xC2 ≤ c ∧ c ≤ 0xDF
  · rw [scalarLoop_cons_two htwo, validUtf8_cons_two htwo]
    refine exists_congr fun b => exists_congr fun r => and_congr_right fun heq => ?_
    rw [ih r.length (by simp only [heq, List.length_cons]; omega) r rfl]
  by_cases hthree : 0xE0 ≤ c ∧ c ≤ 0xEF
  · rw [scalarLoop_cons_three hthree, validUtf8_cons_three hthree]
    refine exists_congr fun b => exists_congr fun d => exists_congr fun r =>
      and_congr_right fun heq => ?_
    rw [ih r.length (by simp only [heq, List.length_cons]; omega) r rfl]
  by_cases hfour : 0xF0 ≤ c ∧ c ≤ 0xF4
  · rw [scalarLoop_cons_four hfour, validUtf8_cons_four hfour]
    refine exists_congr fun b => exists_congr fun d => exists_congr fun e => exists_congr fun r =>
      and_congr_right fun heq => ?_
    rw [ih r.length (by simp only [heq, List.length_cons]; omega) r rfl]
  · rw [scalarLoop.eq_def]
    simp only [if_neg hone, if_neg htwo, if_neg hthree, if_neg hfour]
    exact iff_of_false (by simp) (not_validUtf8_cons hone htwo hthree hfour)

/-! ### The fast path -/

lemma validUtf8_ascii_append {a b : List UInt8} (h : ∀ c ∈ a, c.toNat ≤ 0x7F) :
    ValidUtf8 (a ++ b) ↔ ValidUtf8 b := by
  induction a with
  | nil => simp
  | cons c a ih =>
      have hc : c.toNat ≤ 0x7F := h c (List.mem_cons_self ..)
      rw [← ih fun d hd => h d (List.mem_cons_of_mem _ hd)]
      exact validUtf8_encoded_append (.one hc)

lemma asciiSkip_valid (e : Endian) (n : ℕ) (bs : List UInt8) :
    ValidUtf8 (asciiSkip e n bs) ↔ ValidUtf8 bs := by
  induction n generalizing bs with
  | zero => rfl
  | succ n ih =>
      rw [asciiSkip]
      split
      · rename_i hlen
        split
        · rfl
        · rename_i hzero
          have htake : (bs.take 8).length = 8 := by simp [hlen]
          have hmask : (0x8080808080808080 : ℕ) =
              leValue (List.replicate (bs.take 8).length 0x80) := by
            rw [htake]
            rfl
          rw [ne_eq, not_not, hmask, load_and_replicate_eq_zero] at hzero
          rw [ih, ← validUtf8_ascii_append (a := bs.take 8) (b := bs.drop 8)
            fun c hc => (and_80_eq_zero_iff c).mp (hzero c hc), List.take_append_drop]
      · rfl

/-- **`is_valid_utf8` is exact**, on hosts of either byte order. -/
lemma isValidUtf8_iff (e : Endian) (data : List UInt8) :
    isValidUtf8 e data = true ↔ ValidUtf8 data := by
  rw [isValidUtf8, scalarLoop_iff, asciiSkip_valid]

/-- `detail::is_valid_utf8` of wscpp on a host of the given byte order. -/
def Cpp.isValidUtf8 (host : Endian) (data : List UInt8) : Bool := Wscpp.isValidUtf8 host data

/-- `utf8::is_valid_utf8` of ws-rs. -/
def Rs.isValidUtf8 (data : List UInt8) : Bool := Wscpp.isValidUtf8 .little data

/-! ## `String::from_utf8_lossy` -/

/-- The character or ill-formed piece at the front of a byte string with first byte `b`:
whether it is a character, and how many bytes it has after the first. -/
def lossyHead (b : UInt8) (rest : List UInt8) : Bool × ℕ :=
  let get (i : ℕ) : UInt8 := rest.getD i 0
  let cont (i : ℕ) : Bool := get i &&& 0xC0 == 0x80
  if b < 0x80 then (true, 0)
  else if 0xC2 ≤ b ∧ b ≤ 0xDF then
    if cont 0 then (true, 1) else (false, 0)
  else if 0xE0 ≤ b ∧ b ≤ 0xEF then
    if (b = 0xE0 ∧ 0xA0 ≤ get 0 ∧ get 0 ≤ 0xBF) ∨
        (b = 0xED ∧ 0x80 ≤ get 0 ∧ get 0 ≤ 0x9F) ∨
        (b ≠ 0xE0 ∧ b ≠ 0xED ∧ 0x80 ≤ get 0 ∧ get 0 ≤ 0xBF) then
      if cont 1 then (true, 2) else (false, 1)
    else (false, 0)
  else if 0xF0 ≤ b ∧ b ≤ 0xF4 then
    if (b = 0xF0 ∧ 0x90 ≤ get 0 ∧ get 0 ≤ 0xBF) ∨
        (b = 0xF4 ∧ 0x80 ≤ get 0 ∧ get 0 ≤ 0x8F) ∨
        (b ≠ 0xF0 ∧ b ≠ 0xF4 ∧ 0x80 ≤ get 0 ∧ get 0 ≤ 0xBF) then
      if cont 1 then
        if cont 2 then (true, 3) else (false, 2)
      else (false, 1)
    else (false, 0)
  else (false, 0)

/-- The UTF-8 form of U+FFFD. -/
def replacement : List UInt8 := [0xEF, 0xBF, 0xBD]

/-- `from_utf8_lossy`, piece by piece; the first argument bounds the number of pieces. -/
def lossyLoop : ℕ → List UInt8 → List UInt8
  | 0, _ => []
  | _ + 1, [] => []
  | n + 1, b :: rest =>
      let r := lossyHead b rest
      (if r.1 then b :: rest.take r.2 else replacement) ++ lossyLoop n (rest.drop r.2)

/-- `String::from_utf8_lossy`, as the bytes of the resulting string. -/
def fromUtf8Lossy (bs : List UInt8) : List UInt8 := lossyLoop bs.length bs

lemma lossyHead_encoded {a : UInt8} {u : List UInt8} (h : Encoded (a :: u)) (r : List UInt8) :
    lossyHead a (u ++ r) = (true, u.length) := by
  have cont : ∀ {b : UInt8}, Tail b → (b &&& 0xC0 == 0x80) = true := fun hb => by
    simpa using (and_c0_eq_80_iff _).mpr hb
  cases h with
  | one ha =>
      have : a < 0x80 := by
        rw [lt_iff_toNat]
        exact Nat.lt_succ_of_le ha
      simp [lossyHead, this]
  | two ha ha' hb =>
      have h1 : ¬a < 0x80 := by simp [lt_iff_toNat]; omega
      have h2 : 0xC2 ≤ a ∧ a ≤ 0xDF := by simp [le_iff_toNat]; omega
      simp [lossyHead, h1, h2, cont hb]
  | three ha ha' hb hc h0 hd =>
      have h1 : ¬a < 0x80 := by simp [lt_iff_toNat]; omega
      have h2 : ¬(0xC2 ≤ a ∧ a ≤ 0xDF) := by simp [le_iff_toNat]; omega
      have h3 : 0xE0 ≤ a ∧ a ≤ 0xEF := by simp [le_iff_toNat]; omega
      rename_i b c
      -- the table of second bytes, as `from_utf8_lossy` has it
      have hsecond : (a = 0xE0 ∧ 0xA0 ≤ b ∧ b ≤ 0xBF) ∨ (a = 0xED ∧ 0x80 ≤ b ∧ b ≤ 0x9F) ∨
          (a ≠ 0xE0 ∧ a ≠ 0xED ∧ 0x80 ≤ b ∧ b ≤ 0xBF) := by
        obtain ⟨hb, hb'⟩ := hb
        simp only [le_iff_toNat, eq_iff_toNat, ne_eq]
        simp
        omega
      simp [lossyHead, h1, h2, h3, hsecond, cont hc]
  | four ha ha' hb hc hd h0 h4 =>
      have h1 : ¬a < 0x80 := by simp [lt_iff_toNat]; omega
      have h2 : ¬(0xC2 ≤ a ∧ a ≤ 0xDF) := by simp [le_iff_toNat]; omega
      have h3 : ¬(0xE0 ≤ a ∧ a ≤ 0xEF) := by simp [le_iff_toNat]; omega
      have h5 : 0xF0 ≤ a ∧ a ≤ 0xF4 := by simp [le_iff_toNat]; omega
      rename_i b c d
      have hsecond : (a = 0xF0 ∧ 0x90 ≤ b ∧ b ≤ 0xBF) ∨ (a = 0xF4 ∧ 0x80 ≤ b ∧ b ≤ 0x8F) ∨
          (a ≠ 0xF0 ∧ a ≠ 0xF4 ∧ 0x80 ≤ b ∧ b ≤ 0xBF) := by
        obtain ⟨hb, hb'⟩ := hb
        simp only [le_iff_toNat, eq_iff_toNat, ne_eq]
        simp
        omega
      simp [lossyHead, h1, h2, h3, h5, hsecond, cont hc, cont hd]

lemma lossyLoop_of_valid (n : ℕ) (bs : List UInt8) (hn : bs.length ≤ n) (h : ValidUtf8 bs) :
    lossyLoop n bs = bs := by
  induction n generalizing bs with
  | zero =>
      have : bs = [] := List.eq_nil_of_length_eq_zero (by omega)
      subst this
      rfl
  | succ n ih =>
      rcases eq_or_ne bs [] with rfl | hne
      · rfl
      · obtain ⟨v, r, rfl, hv, hr⟩ := h.exists_encoded hne
        cases v with
        | nil => exact absurd rfl hv.ne_nil
        | cons a u =>
            rw [List.cons_append, lossyLoop, lossyHead_encoded hv r]
            simp only [List.length_cons, List.length_append, List.cons_append] at hn
            simp only [if_true, List.take_left, List.drop_left, List.cons_append]
            rw [ih r (by omega) hr]

/-- **Lossy decoding of valid input is the identity.** -/
lemma fromUtf8Lossy_of_valid {bs : List UInt8} (h : ValidUtf8 bs) : fromUtf8Lossy bs = bs :=
  lossyLoop_of_valid bs.length bs le_rfl h

/-! ### ASCII bytes

An ASCII byte is no part of a longer character, so the pieces on its two sides are found
independently. -/

/-- The piece at the front does not see an ASCII byte behind it, nor what follows that. -/
lemma lossyHead_append_ascii {c : UInt8} (hc : c.toNat ≤ 0x7F) (b : UInt8) (r s : List UInt8) :
    lossyHead b (r ++ c :: s) = lossyHead b r := by
  have hcont : ¬c &&& 0xC0 = 0x80 := by
    rw [and_c0_eq_80_iff]
    exact fun h => absurd h.1 (by omega)
  have h80 : ¬0x80 ≤ c := by simp [le_iff_toNat]; omega
  have h90 : ¬0x90 ≤ c := by simp [le_iff_toNat]; omega
  have hA0 : ¬0xA0 ≤ c := by simp [le_iff_toNat]; omega
  have hlow : ¬(0x80 : UInt8) ≤ 0 ∧ ¬(0x90 : UInt8) ≤ 0 ∧ ¬(0xA0 : UInt8) ≤ 0 := by decide
  obtain ⟨hl80, hl90, hlA0⟩ := hlow
  rcases r with _ | ⟨x, _ | ⟨y, _ | ⟨z, r⟩⟩⟩ <;>
    simp [lossyHead, hcont, h80, h90, hA0, hl80, hl90, hlA0]

/-- The piece at the front ends within the text: behind the end there is no continuation byte. -/
lemma lossyHead_le (b : UInt8) (r : List UInt8) : (lossyHead b r).2 ≤ r.length := by
  have hcont : ∀ i, (r.getD i 0 &&& 0xC0 == 0x80) = true → i < r.length := by
    intro i h
    by_contra hge
    rw [List.getD_eq_getElem?_getD, List.getElem?_eq_none (by omega)] at h
    exact absurd h (by decide)
  cases r with
  | nil =>
      have hlow : ¬(0x80 : UInt8) ≤ 0 ∧ ¬(0x90 : UInt8) ≤ 0 ∧ ¬(0xA0 : UInt8) ≤ 0 := by decide
      simp only [lossyHead]
      split_ifs <;> simp_all
  | cons x r =>
      simp only [lossyHead]
      split_ifs with h1 h2 h3 h4 h5 h6 h7 h8 h9 h10
      · exact Nat.zero_le _
      · exact hcont 0 h3
      · exact Nat.zero_le _
      · exact hcont 1 h6
      · simp
      · exact Nat.zero_le _
      · exact hcont 2 h10
      · exact hcont 1 h9
      · simp
      · exact Nat.zero_le _
      · exact Nat.zero_le _

lemma lossyLoop_of_le {n : ℕ} {bs : List UInt8} (h : bs.length ≤ n) :
    lossyLoop n bs = fromUtf8Lossy bs := by
  unfold fromUtf8Lossy
  induction n using Nat.strong_induction_on generalizing bs with
  | _ n ih =>
      cases bs with
      | nil => cases n <;> rfl
      | cons b rest =>
          cases n with
          | zero => simp at h
          | succ n =>
              have hdrop : (rest.drop (lossyHead b rest).2).length ≤ rest.length := by simp
              simp only [List.length_cons] at h
              rw [List.length_cons, lossyLoop, lossyLoop, ih n (by omega) (by omega),
                ih rest.length (by omega) hdrop]

/-- One piece of lossy decoding. -/
lemma fromUtf8Lossy_cons (b : UInt8) (rest : List UInt8) :
    fromUtf8Lossy (b :: rest) =
      (if (lossyHead b rest).1 then b :: rest.take (lossyHead b rest).2 else replacement) ++
        fromUtf8Lossy (rest.drop (lossyHead b rest).2) := by
  have hdrop : (rest.drop (lossyHead b rest).2).length ≤ rest.length := by simp
  rw [← lossyLoop_of_le hdrop]
  rfl

/-- **Cutting at an ASCII byte.** -/
lemma fromUtf8Lossy_append_ascii {c : UInt8} (hc : c.toNat ≤ 0x7F) (a b : List UInt8) :
    fromUtf8Lossy (a ++ c :: b) = fromUtf8Lossy a ++ c :: fromUtf8Lossy b := by
  have hone : lossyHead c b = (true, 0) := lossyHead_encoded (u := []) (.one hc) b
  induction ha : a.length using Nat.strong_induction_on generalizing a with
  | _ n ih =>
      cases a with
      | nil =>
          rw [List.nil_append, fromUtf8Lossy_cons, hone]
          rfl
      | cons x a =>
          have hle := lossyHead_le x a
          have hlen : (a.drop (lossyHead x a).2).length < n := by
            rw [← ha, List.length_drop, List.length_cons]
            omega
          rw [List.cons_append, fromUtf8Lossy_cons, fromUtf8Lossy_cons,
            lossyHead_append_ascii hc, List.drop_append_of_le_length hle,
            List.take_append_of_le_length hle, ih _ hlen _ rfl, List.append_assoc]

lemma fromUtf8Lossy_ascii_append {a : List UInt8} (h : ∀ c ∈ a, c.toNat ≤ 0x7F)
    (b : List UInt8) : fromUtf8Lossy (a ++ b) = a ++ fromUtf8Lossy b := by
  induction a with
  | nil => rfl
  | cons c a ih =>
      have hcut := fromUtf8Lossy_append_ascii (h c (by simp)) [] (a ++ b)
      rw [ih fun d hd => h d (List.mem_cons_of_mem _ hd)] at hcut
      exact hcut

/-- No ASCII byte comes out that did not go in. -/
lemma notMem_fromUtf8Lossy {c : UInt8} (hc : c.toNat ≤ 0x7F) {bs : List UInt8} (h : c ∉ bs) :
    c ∉ fromUtf8Lossy bs := by
  have hreplacement : c ∉ replacement := by
    intro hmem
    have hbig : ∀ d ∈ replacement, 0x7F < d.toNat := by decide +kernel
    exact absurd (hbig c hmem) (by omega)
  induction hn : bs.length using Nat.strong_induction_on generalizing bs with
  | _ n ih =>
      cases bs with
      | nil => simp [fromUtf8Lossy, lossyLoop]
      | cons b rest =>
          have hlen : (rest.drop (lossyHead b rest).2).length < n := by
            rw [← hn, List.length_drop, List.length_cons]
            omega
          have hrest : c ∉ rest := fun hmem => h (List.mem_cons_of_mem _ hmem)
          have hlater := ih _ hlen (fun hmem => hrest (List.mem_of_mem_drop hmem)) rfl
          rw [fromUtf8Lossy_cons, List.mem_append, not_or]
          refine ⟨?_, hlater⟩
          split
          · intro hmem
            rcases List.mem_cons.mp hmem with rfl | hmem
            · exact h (by simp)
            · exact hrest (List.mem_of_mem_take hmem)
          · exact hreplacement

end Wscpp
