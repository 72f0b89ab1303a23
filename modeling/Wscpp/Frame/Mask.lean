import Wscpp.Lib.Words
import Wscpp.Frame.Basic

/-!
# Payload masking

`detail/mask.hpp` and `frame/mask.rs` are the same two functions, one a port of the other.
`apply_mask` masks a buffer in place with five loops of falling stride; `copy_and_unmask`
copies a piece of a payload that starts at some offset of the frame and picks its stride from
that offset.  Both combine whole words with a key repeated to the word's width.

wscpp moves bytes into words with `memcpy`, so the words have the byte order of the host;
ws-rs uses `from_le_bytes` and `to_le_bytes`, so its words are little-endian everywhere.  The
byte order is therefore a parameter here, and the two sources are the two instances
(`Cpp.applyMask host` and `Rs.applyMask`, and likewise for `copyAndUnmask`).

`xorKey` is the byte-wise definition of RFC 6455 §5.3, and `applyMask_eq` and
`copyAndUnmask_eq` say that the word-wide loops compute it for every length, offset and byte
order.  Everything above this file uses these two equations and the laws of `xorKey`.
-/

namespace Wscpp.Mask

open Words

/-! ## The byte-wise definition -/

/-- Exclusive or with the key, byte `i` of the piece being byte `o + i` of the payload. -/
def xorKey (key : Key) : ℕ → List UInt8 → List UInt8
  | _, [] => []
  | o, b :: bs => (b ^^^ key.byte o) :: xorKey key (o + 1) bs

@[simp] lemma xorKey_nil (key : Key) (o : ℕ) : xorKey key o [] = [] := rfl

@[simp] lemma length_xorKey (key : Key) (o : ℕ) (bs : List UInt8) :
    (xorKey key o bs).length = bs.length := by
  induction bs generalizing o with
  | nil => rfl
  | cons b bs ih => simp [xorKey, ih]

lemma xorKey_append (key : Key) (o : ℕ) (a b : List UInt8) :
    xorKey key o (a ++ b) = xorKey key o a ++ xorKey key (o + a.length) b := by
  induction a generalizing o with
  | nil => simp
  | cons x a ih =>
      rw [List.cons_append, xorKey, ih, xorKey, List.cons_append, List.length_cons,
        Nat.add_right_comm, Nat.add_assoc o]

@[simp] lemma xorKey_xorKey (key : Key) (o : ℕ) (bs : List UInt8) :
    xorKey key o (xorKey key o bs) = bs := by
  induction bs generalizing o with
  | nil => rfl
  | cons b bs ih => rw [xorKey, xorKey, ih, UInt8.xor_assoc, UInt8.xor_self, UInt8.xor_zero]

/-- Byte `i` of the piece meets byte `(o + i) mod 4` of the key. -/
lemma getElem?_xorKey (key : Key) (o i : ℕ) (bs : List UInt8) :
    (xorKey key o bs)[i]? = bs[i]?.map (· ^^^ key.toList.getD ((o + i) % 4) 0) := by
  induction bs generalizing o i with
  | nil => rfl
  | cons b bs ih =>
      cases i with
      | zero =>
          rw [xorKey, List.getElem?_cons_zero, List.getElem?_cons_zero, Option.map_some,
            Nat.add_zero, key.byte_eq_getD]
      | succ i =>
          rw [xorKey, List.getElem?_cons_succ, List.getElem?_cons_succ, ih,
            show o + 1 + i = o + (i + 1) from by omega]

lemma xorKey_congr (key : Key) {o p : ℕ} (h : o % 4 = p % 4) (bs : List UInt8) :
    xorKey key o bs = xorKey key p bs := by
  induction bs generalizing o p with
  | nil => rfl
  | cons b bs ih =>
      rw [xorKey, xorKey, key.byte_congr o p h, ih (o := o + 1) (p := p + 1) (by omega)]

/-! ## Word-wide steps -/

/-- `store(load(bytes) ^ word)`. -/
def xorWord (e : Endian) (word : ℕ) (bytes : List UInt8) : List UInt8 :=
  store e bytes.length (load e bytes ^^^ word)

/-- `load_u32_le(key)`. -/
def key32 (e : Endian) (key : Key) : ℕ := load e key.toList

/-- `mask_key64`: the 32-bit key in both halves of a 64-bit word. -/
def maskKey64 (k : ℕ) : ℕ := k ||| k <<< 32

/-- `n` consecutive 8-byte words of a block. -/
def xorWords (e : Endian) (word : ℕ) : ℕ → List UInt8 → List UInt8
  | 0, bytes => bytes
  | n + 1, bytes => xorWord e word (bytes.take 8) ++ xorWords e word n (bytes.drop 8)

lemma xorWord_eq_zipWith (e : Endian) (k bytes : List UInt8) (h : bytes.length = k.length) :
    xorWord e (load e k) bytes = List.zipWith (· ^^^ ·) bytes k := by
  have hlen : (List.zipWith (· ^^^ ·) bytes k).length = bytes.length := by simp [h]
  rw [xorWord, load_xor e bytes k h, ← hlen, store_load]

lemma xorWord32_eq (e : Endian) (key : Key) (bytes : List UInt8) (h : bytes.length = 4) :
    xorWord e (key32 e key) bytes = xorKey key 0 bytes := by
  rw [key32, xorWord_eq_zipWith e key.toList bytes h]
  obtain ⟨a, b, c, d, rfl⟩ := List.length_eq_four.mp h
  rfl

lemma xorWord64_eq (e : Endian) (key : Key) (bytes : List UInt8) (h : bytes.length = 8) :
    xorWord e (maskKey64 (key32 e key)) bytes = xorKey key 0 bytes := by
  have hkey : maskKey64 (key32 e key) = load e (key.toList ++ key.toList) :=
    load_double e key.toList
  -- Both halves of the word meet the key at phase zero.
  have htake : (bytes.take 4).length = 4 := by simp [h]
  have hdrop : (bytes.drop 4).length = 4 := by simp [h]
  rw [hkey, xorWord_eq_zipWith e _ bytes (by simpa using h)]
  conv_rhs => rw [← List.take_append_drop 4 bytes]
  conv_lhs => rw [← List.take_append_drop 4 bytes]
  rw [List.zipWith_append (by simpa using htake), xorKey_append,
    xorKey_congr key (o := 0 + (bytes.take 4).length) (p := 0) (by omega) (bytes.drop 4)]
  obtain ⟨a, b, c, d, h1⟩ := List.length_eq_four.mp htake
  obtain ⟨a', b', c', d', h2⟩ := List.length_eq_four.mp hdrop
  rw [h1, h2]
  rfl

lemma xorWords_eq (e : Endian) (key : Key) (n : ℕ) (bytes : List UInt8)
    (h : bytes.length = 8 * n) :
    xorWords e (maskKey64 (key32 e key)) n bytes = xorKey key 0 bytes := by
  induction n generalizing bytes with
  | zero =>
      have : bytes = [] := List.eq_nil_of_length_eq_zero (by omega)
      subst this
      rfl
  | succ n ih =>
      have htake : (bytes.take 8).length = 8 := by simp; omega
      rw [xorWords, xorWord64_eq e key _ htake, ih _ (by simp; omega)]
      conv_rhs => rw [← List.take_append_drop 8 bytes, xorKey_append, htake]
      rw [xorKey_congr key (o := 0 + 8) (p := 0) (by omega) (bytes.drop 8)]

/-! ## `apply_mask` -/

/-- `while (i < size && (i & 3) != 0)`: masked bytes, position reached, bytes left. -/
def alignLoop (key : Key) : ℕ → List UInt8 → List UInt8 × ℕ × List UInt8
  | i, [] => ([], i, [])
  | i, b :: bs =>
      if i % 4 ≠ 0 then
        let r := alignLoop key (i + 1) bs
        ((b ^^^ key.byte i) :: r.1, r.2)
      else ([], i, b :: bs)

/-- `while (i + w <= size)` with a body on the next `w` bytes; the first argument bounds the
number of turns. -/
def blockLoop (w : ℕ) (body : List UInt8 → List UInt8) :
    ℕ → ℕ → List UInt8 → List UInt8 × ℕ × List UInt8
  | 0, i, bs => ([], i, bs)
  | n + 1, i, bs =>
      if w ≤ bs.length then
        let r := blockLoop w body n (i + w) (bs.drop w)
        (body (bs.take w) ++ r.1, r.2)
      else ([], i, bs)

/-- `apply_mask`: an alignment loop (which never turns from position 0), strides of 64, 32, 8
and 4 bytes, and single bytes. -/
def applyMask (e : Endian) (key : Key) (data : List UInt8) : List UInt8 :=
  if data.isEmpty then data
  else
    let k32 := key32 e key
    let k64 := maskKey64 k32
    let r0 := alignLoop key 0 data
    let r1 := blockLoop 64 (xorWords e k64 8) r0.2.2.length r0.2.1 r0.2.2
    let r2 := blockLoop 32 (xorWords e k64 4) r1.2.2.length r1.2.1 r1.2.2
    let r3 := blockLoop 8 (xorWord e k64) r2.2.2.length r2.2.1 r2.2.2
    let r4 := blockLoop 4 (xorWord e k32) r3.2.2.length r3.2.1 r3.2.2
    r0.1 ++ r1.1 ++ r2.1 ++ r3.1 ++ r4.1 ++ xorKey key r4.2.1 r4.2.2

/-- What a loop leaves behind masks to what it was given, at an aligned position. -/
def Masks (key : Key) (i : ℕ) (bs : List UInt8) (r : List UInt8 × ℕ × List UInt8) : Prop :=
  r.1 ++ xorKey key r.2.1 r.2.2 = xorKey key i bs ∧ r.2.1 % 4 = 0

lemma blockLoop_masks (key : Key) {w : ℕ} {body : List UInt8 → List UInt8} (hw : w % 4 = 0)
    (hbody : ∀ b, b.length = w → body b = xorKey key 0 b) (n i : ℕ) (bs : List UInt8)
    (hi : i % 4 = 0) : Masks key i bs (blockLoop w body n i bs) := by
  induction n generalizing i bs with
  | zero => exact ⟨rfl, hi⟩
  | succ n ih =>
      rw [blockLoop]
      split
      · rename_i hle
        obtain ⟨heq, hpos⟩ := ih (i + w) (bs.drop w) (by omega)
        refine ⟨?_, hpos⟩
        have htake : (bs.take w).length = w := by simp [hle]
        conv_rhs => rw [← List.take_append_drop w bs, xorKey_append, htake, ← heq]
        rw [hbody _ htake, xorKey_congr key (o := 0) (p := i) (by omega) (bs.take w),
          List.append_assoc]
      · exact ⟨rfl, hi⟩

/-- **`apply_mask` is the byte-wise definition**, for every length and byte order. -/
theorem applyMask_eq (e : Endian) (key : Key) (data : List UInt8) :
    applyMask e key data = xorKey key 0 data := by
  rw [applyMask]
  split
  · rename_i h
    rw [List.isEmpty_iff.mp h]
    rfl
  · have h0 : alignLoop key 0 data = ([], 0, data) := by
      cases data <;> rfl
    simp only [h0]
    obtain ⟨h1, p1⟩ := blockLoop_masks key (w := 64) (by omega)
      (fun b hb => xorWords_eq e key 8 b hb) data.length 0 data (by omega)
    generalize blockLoop 64 _ data.length 0 data = r1 at h1 p1 ⊢
    obtain ⟨h2, p2⟩ := blockLoop_masks key (w := 32) (by omega)
      (fun b hb => xorWords_eq e key 4 b hb) r1.2.2.length r1.2.1 r1.2.2 p1
    generalize blockLoop 32 _ r1.2.2.length r1.2.1 r1.2.2 = r2 at h2 p2 ⊢
    obtain ⟨h3, p3⟩ := blockLoop_masks key (w := 8) (by omega)
      (fun b hb => xorWord64_eq e key b hb) r2.2.2.length r2.2.1 r2.2.2 p2
    generalize blockLoop 8 _ r2.2.2.length r2.2.1 r2.2.2 = r3 at h3 p3 ⊢
    obtain ⟨h4, -⟩ := blockLoop_masks key (w := 4) (by omega)
      (fun b hb => xorWord32_eq e key b hb) r3.2.2.length r3.2.1 r3.2.2 p3
    generalize blockLoop 4 _ r3.2.2.length r3.2.1 r3.2.2 = r4 at h4 ⊢
    rw [List.append_assoc, h4, List.append_assoc, h3, List.append_assoc, h2,
      List.append_assoc, h1, List.nil_append]

/-! ## `copy_and_unmask` -/

/-- The loop of `copy_and_unmask`: 8 bytes at a position divisible by 8, else 4 at one
divisible by 4, else a single byte.  The first argument bounds the number of turns. -/
def copyLoop (e : Endian) (key : Key) : ℕ → ℕ → List UInt8 → List UInt8
  | 0, _, _ => []
  | _ + 1, _, [] => []
  | n + 1, pos, b :: bs =>
      if pos % 8 = 0 ∧ 8 ≤ (b :: bs).length then
        xorWord e (maskKey64 (key32 e key)) ((b :: bs).take 8) ++
          copyLoop e key n (pos + 8) ((b :: bs).drop 8)
      else if pos % 4 = 0 ∧ 4 ≤ (b :: bs).length then
        xorWord e (key32 e key) ((b :: bs).take 4) ++
          copyLoop e key n (pos + 4) ((b :: bs).drop 4)
      else (b ^^^ key.byte pos) :: copyLoop e key n (pos + 1) bs

/-- `copy_and_unmask`: the bytes written for `src`, a piece of the payload at `offset`. -/
def copyAndUnmask (e : Endian) (key : Key) (offset : ℕ) (src : List UInt8) : List UInt8 :=
  copyLoop e key src.length offset src

lemma copyLoop_eq (e : Endian) (key : Key) (n pos : ℕ) (src : List UInt8)
    (h : src.length ≤ n) : copyLoop e key n pos src = xorKey key pos src := by
  induction n generalizing pos src with
  | zero =>
      have : src = [] := List.eq_nil_of_length_eq_zero (by omega)
      subst this
      rfl
  | succ n ih =>
      cases src with
      | nil => rfl
      | cons b bs =>
          have hlen : (b :: bs).length = bs.length + 1 := rfl
          rw [copyLoop]
          split
          · rename_i hc
            have htake : ((b :: bs).take 8).length = 8 := by simp at hc ⊢; omega
            rw [xorWord64_eq e key _ htake, ih (pos + 8) _ (by simp at h ⊢; omega)]
            conv_rhs => rw [← List.take_append_drop 8 (b :: bs), xorKey_append, htake]
            rw [xorKey_congr key (o := 0) (p := pos) (by omega) ((b :: bs).take 8)]
          · split
            · rename_i hc
              have htake : ((b :: bs).take 4).length = 4 := by simp at hc ⊢; omega
              rw [xorWord32_eq e key _ htake, ih (pos + 4) _ (by simp at h ⊢; omega)]
              conv_rhs => rw [← List.take_append_drop 4 (b :: bs), xorKey_append, htake]
              rw [xorKey_congr key (o := 0) (p := pos) (by omega) ((b :: bs).take 4)]
            · rw [ih (pos + 1) bs (by omega), xorKey]

/-- **`copy_and_unmask` is the byte-wise definition** at its offset. -/
theorem copyAndUnmask_eq (e : Endian) (key : Key) (offset : ℕ) (src : List UInt8) :
    copyAndUnmask e key offset src = xorKey key offset src :=
  copyLoop_eq e key src.length offset src le_rfl

end Wscpp.Mask

/-! ## The two sources -/

namespace Wscpp

/-- `wscpp::detail::apply_mask` on a host of the given byte order. -/
def Cpp.applyMask (host : Words.Endian) (key : Key) (data : List UInt8) : List UInt8 :=
  Mask.applyMask host key data

/-- `apply_mask` of `frame/mask.rs`, whose words are little-endian. -/
def Rs.applyMask (key : Key) (data : List UInt8) : List UInt8 :=
  Mask.applyMask .little key data

/-- `wscpp::detail::copy_and_unmask`. -/
def Cpp.copyAndUnmask (host : Words.Endian) (key : Key) (offset : ℕ) (src : List UInt8) :
    List UInt8 :=
  Mask.copyAndUnmask host key offset src

/-- `copy_and_unmask` of `frame/mask.rs`. -/
def Rs.copyAndUnmask (key : Key) (offset : ℕ) (src : List UInt8) : List UInt8 :=
  Mask.copyAndUnmask .little key offset src

/-! ## Masking, as it is used

A sender masks a whole payload with `apply_mask`; a receiver unmasks it with
`copy_and_unmask`, one piece of it for each piece of the stream that arrives, at the running
offset of the payload it has collected. -/

/-- `copy_and_unmask` on consecutive pieces of a payload, each at the offset where the pieces
before it end. -/
def Mask.unmaskPieces (copyAndUnmask : Key → ℕ → List UInt8 → List UInt8) (key : Key) :
    ℕ → List (List UInt8) → List UInt8
  | _, [] => []
  | o, piece :: pieces =>
      copyAndUnmask key o piece ++ unmaskPieces copyAndUnmask key (o + piece.length) pieces

/-- A pair of masking functions that computes the byte-wise definition, with what follows
from it. -/
structure Mask.Bytewise (applyMask : Key → List UInt8 → List UInt8)
    (copyAndUnmask : Key → ℕ → List UInt8 → List UInt8) : Prop where
  /-- `dst[i] = src[i] ^ key[(o + i) mod 4]`, and nothing past the end of `src`. -/
  copy : ∀ key o src i, (copyAndUnmask key o src)[i]? =
    src[i]?.map (· ^^^ key.toList.getD ((o + i) % 4) 0)
  /-- `data[i] ^ key[i mod 4]`. -/
  apply : ∀ key data i, (applyMask key data)[i]? =
    data[i]?.map (· ^^^ key.toList.getD (i % 4) 0)
  involutive : ∀ key, Function.Involutive (applyMask key)
  /-- Unmasking in pieces gives the bytes that unmasking the whole gives. -/
  pieces : ∀ key o pieces,
    Mask.unmaskPieces copyAndUnmask key o pieces = copyAndUnmask key o pieces.flatten

lemma Mask.unmaskPieces_xorKey (key : Key) (o : ℕ) (pieces : List (List UInt8)) :
    unmaskPieces xorKey key o pieces = xorKey key o pieces.flatten := by
  induction pieces generalizing o with
  | nil => rfl
  | cons piece pieces ih => rw [unmaskPieces, ih, List.flatten_cons, xorKey_append]

/-- The word-wide loops are byte-wise in either byte order. -/
lemma Mask.bytewise (e : Words.Endian) : Bytewise (applyMask e) (copyAndUnmask e) := by
  have happly : applyMask e = fun key => xorKey key 0 :=
    funext fun key => funext fun data => applyMask_eq e key data
  have hcopy : copyAndUnmask e = xorKey :=
    funext fun key => funext fun o => funext fun src => copyAndUnmask_eq e key o src
  rw [happly, hcopy]
  constructor
  · intro key o src i
    exact getElem?_xorKey key o i src
  · intro key data i
    rw [getElem?_xorKey, Nat.zero_add]
  · intro key data
    exact xorKey_xorKey key 0 data
  · intro key o pieces
    exact unmaskPieces_xorKey key o pieces

/-- **Masking is byte-wise on every host.**  Both functions of both sources compute their
byte-wise definition, for every key, offset and length, whether the words that wscpp loads
with `memcpy` are little-endian or big-endian; hence masking twice restores the payload, and
a payload may be unmasked piece by piece. -/
theorem masking_is_bytewise :
    (∀ host, Mask.Bytewise (Cpp.applyMask host) (Cpp.copyAndUnmask host)) ∧
      Mask.Bytewise Rs.applyMask Rs.copyAndUnmask :=
  ⟨fun host => Mask.bytewise host, Mask.bytewise .little⟩

end Wscpp
