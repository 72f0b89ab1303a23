import Mathlib.Data.List.Basic
import Mathlib.Data.List.Infix
import Mathlib.Tactic.SplitIfs
import Mathlib.Tactic.Tauto
import Mathlib.Tactic.Push
import Mathlib.Tactic.Ring

/-!
# permessage-deflate

`extensions/permessage_deflate.cpp` and `extensions/permessage_deflate.rs` compress and
decompress one message.  Each makes a single zlib (or flate2) call into an output buffer of
fixed size: `size + 32` bytes to compress, `size * 8 + 64` to decompress.

zlib is not part of the repository.  `Zlib` is the interface the code uses, one call with an
input and an amount of output space, and `Zlib.Documented` is what zlib documents about it in
terms of two functions: the whole stream a sync-flushed raw deflate makes of a message, and
everything a raw inflate makes of an input.  A call writes the first bytes that fit.

The model keeps zlib's 32-bit counters.  wscpp casts the sizes into `avail_in` and
`avail_out`, so from 4 GiB on the call sees only part of the input and the count of produced
bytes is off by a multiple of 2^32, which then reads zeros behind what zlib wrote.

The result is the exact set of messages that survive: `deflate_round_trip_iff`.  A message is
recovered when its stream fits the compression buffer and the message itself fits the
decompression buffer, whose size is eight times the stream and 64 bytes more.
-/

namespace Wscpp

/-! ## zlib -/

/-- Return codes of `deflate` and `inflate`.  flate2 reports the first three as `Ok`. -/
inductive ZRet
  | ok
  | bufError
  | streamEnd
  | dataError
  deriving DecidableEq, Repr

/-- The calls the code makes: input and output space to return code and bytes written. -/
structure Zlib where
  deflateCall : List UInt8 → ℕ → ZRet × List UInt8
  inflateCall : List UInt8 → ℕ → ZRet × List UInt8

/-- The four bytes a sync flush ends with, `00 00 ff ff`. -/
def deflateTail : List UInt8 := [0x00, 0x00, 0xff, 0xff]

/-- What zlib documents, for the whole stream `deflated m` of a message and the whole output
`inflated s` of an input. -/
structure Zlib.Documented (z : Zlib) (deflated inflated : List UInt8 → List UInt8) : Prop where
  /-- A call with output space writes the first bytes that fit and succeeds. -/
  deflate_call : ∀ m space, 0 < space → z.deflateCall m space = (.ok, (deflated m).take space)
  /-- A call without output space reports a buffer error. -/
  deflate_no_space : ∀ m, (z.deflateCall m 0).1 = .bufError
  /-- A sync flush ends the stream with the marker. -/
  deflate_tail : ∀ m, m ≠ [] → deflateTail <:+ deflated m
  /-- A call that does not fail writes the first bytes that fit. -/
  inflate_call : ∀ s space, (z.inflateCall s space).1 ≠ .dataError →
    (z.inflateCall s space).2 = (inflated s).take space
  /-- Nothing that begins a sync-flushed stream is an error or ends the stream. -/
  inflate_ok : ∀ m s space, s <+: deflated m →
    (z.inflateCall s space).1 = .ok ∨ (z.inflateCall s space).1 = .bufError
  /-- Inflating undoes deflating. -/
  inflate_deflate : ∀ m, m ≠ [] → inflated (deflated m) = m
  /-- The first part of a stream inflates to the first part of the message. -/
  inflate_mono : ∀ m s, s <+: deflated m → inflated s <+: inflated (deflated m)
  /-- The marker alone holds no data. -/
  inflate_tail : inflated deflateTail = []

/-! ## wscpp -/

namespace Cpp

/-- `ends_with_deflate_tail` on the first `size` bytes of a buffer. -/
def endsWithDeflateTail (data : List UInt8) (size : ℕ) : Bool :=
  decide (4 ≤ size) && data.getD (size - 4) 0 == 0x00 && data.getD (size - 3) 0 == 0x00 &&
    data.getD (size - 2) 0 == 0xff && data.getD (size - 1) 0 == 0xff

/-- A buffer of `size` zero bytes after a call wrote to its front. -/
def filled (size : ℕ) (written : List UInt8) : List UInt8 :=
  written ++ List.replicate (size - written.length) 0

/-- `compress_message`. -/
def compressMessage (z : Zlib) (data : List UInt8) : Option (List UInt8) :=
  if data.length = 0 then some []
  else
    let size := data.length + 32
    let availIn := data.length % 2 ^ 32
    let availOut := size % 2 ^ 32
    let r := z.deflateCall (data.take availIn) availOut
    let buffer := filled size r.2
    let produced := size - (availOut - r.2.length)
    if r.1 ≠ .ok ∨ produced < 4 ∨ !endsWithDeflateTail buffer produced then none
    else some (buffer.take (produced - 4))

/-- `decompress_message`. -/
def decompressMessage (z : Zlib) (data : List UInt8) : Option (List UInt8) :=
  if data.length = 0 then some []
  else
    let input := data ++ deflateTail
    let size := data.length * 8 + 64
    let availIn := input.length % 2 ^ 32
    let availOut := size % 2 ^ 32
    let r := z.inflateCall (input.take availIn) availOut
    let buffer := filled size r.2
    let produced := size - (availOut - r.2.length)
    if r.1 ≠ .ok ∧ r.1 ≠ .bufError then none else some (buffer.take produced)

end Cpp

/-! ## ws-rs -/

namespace Rs

/-- `compress_message`; `compress_vec` writes into the vector's spare capacity. -/
def compressMessage (z : Zlib) (data : List UInt8) : Option (List UInt8) :=
  if data.isEmpty then some []
  else
    let r := z.deflateCall data (data.length + 32)
    if r.1 = .dataError then none
    else if r.2.length < 4 ∨ !Cpp.endsWithDeflateTail r.2 r.2.length then none
    else some (r.2.take (r.2.length - 4))

/-- `decompress_message`. -/
def decompressMessage (z : Zlib) (data : List UInt8) : Option (List UInt8) :=
  if data.isEmpty then some []
  else
    let input := data ++ deflateTail
    let r := z.inflateCall input (data.length * 8 + 64)
    if r.1 = .dataError then none else some r.2

end Rs

/-! ## What one message needs -/

/-- A message comes back from compression and decompression. -/
def RoundTrips (compress decompress : List UInt8 → Option (List UInt8)) (m : List UInt8) : Prop :=
  ∃ c, compress m = some c ∧ decompress c = some m

/-- A successful decompression returns everything the input inflates to. -/
def ReturnsWhole (decompress : List UInt8 → Option (List UInt8))
    (inflated : List UInt8 → List UInt8) (d : List UInt8) : Prop :=
  ∀ out, decompress d = some out → out = inflated (d ++ deflateTail)

/-- The part of a message's stream that the compression buffer holds. -/
def heldStream (deflated : List UInt8 → List UInt8) (m : List UInt8) : List UInt8 :=
  (deflated m).take (m.length + 32)

/-- Both buffers are large enough: what the compression buffer holds of the stream still ends
in the marker and still carries the whole message, and the message fits the decompression
buffer. -/
def BuffersSuffice (deflated inflated : List UInt8 → List UInt8) (m : List UInt8) : Prop :=
  deflateTail <:+ heldStream deflated m ∧ inflated (heldStream deflated m) = m ∧
    m.length ≤ ((heldStream deflated m).length - 4) * 8 + 64

/-- Both buffers are small enough for zlib's 32-bit counters. -/
def CountersSuffice (deflated : List UInt8 → List UInt8) (m : List UInt8) : Prop :=
  m.length + 32 < 2 ^ 32 ∧ ((heldStream deflated m).length - 4) * 8 + 64 < 2 ^ 32

/-! ## The tail test -/

lemma endsWithDeflateTail_append (p : List UInt8) (a b c d : UInt8) (zeros : List UInt8) :
    Cpp.endsWithDeflateTail (p ++ [a, b, c, d] ++ zeros) (p ++ [a, b, c, d]).length =
      (a == 0x00 && b == 0x00 && c == 0xff && d == 0xff) := by
  simp only [Cpp.endsWithDeflateTail, List.length_append, List.length_cons, List.length_nil]
  have hle : decide (4 ≤ p.length + (0 + 1 + 1 + 1 + 1)) = true := by simp
  rw [hle]
  simp [List.getD_eq_getElem?_getD]

/-- The tail test on the bytes zlib wrote, with the zeros of the buffer behind them. -/
lemma endsWithDeflateTail_iff (written zeros : List UInt8) :
    Cpp.endsWithDeflateTail (written ++ zeros) written.length = true ↔
      deflateTail <:+ written := by
  by_cases h : 4 ≤ written.length
  · have hsplit := List.take_append_drop (written.length - 4) written
    obtain ⟨a, b, c, d, hd⟩ := List.length_eq_four.mp
      (show (written.drop (written.length - 4)).length = 4 by simp; omega)
    rw [hd] at hsplit
    generalize written.take (written.length - 4) = p at hsplit
    subst hsplit
    rw [endsWithDeflateTail_append]
    constructor
    · intro h
      simp only [Bool.and_eq_true, beq_iff_eq] at h
      obtain ⟨⟨⟨rfl, rfl⟩, rfl⟩, rfl⟩ := h
      exact ⟨p, rfl⟩
    · rintro ⟨q, hq⟩
      have := (List.append_inj' hq rfl).2
      simp only [deflateTail, List.cons.injEq] at this
      obtain ⟨rfl, rfl, rfl, rfl, -⟩ := this
      rfl
  · constructor
    · intro ht
      simp [Cpp.endsWithDeflateTail] at ht
      omega
    · rintro ⟨q, rfl⟩
      simp [deflateTail] at h

/-! ## Compression -/

lemma heldStream_within (deflated : List UInt8 → List UInt8) (m : List UInt8) :
    heldStream deflated m <+: deflated m :=
  List.take_prefix _ _

/-- Cutting the marker off a stream that ends in it. -/
lemma eq_take_sub_four {s c : List UInt8} (h : deflateTail <:+ s) :
    s.take (s.length - 4) = c ↔ s = c ++ deflateTail := by
  obtain ⟨q, rfl⟩ := h
  have : (q ++ deflateTail).take ((q ++ deflateTail).length - 4) = q := by
    simp [deflateTail]
  rw [this]
  constructor
  · rintro rfl
    rfl
  · intro h
    exact List.append_cancel_right h

/-- The end of both compressors: the bytes written lose their marker, or there is none. -/
lemma stripTail_eq_some (written zeros c : List UInt8) :
    (if written.length < 4 ∨ !Cpp.endsWithDeflateTail (written ++ zeros) written.length then none
      else some ((written ++ zeros).take (written.length - 4))) = some c ↔
      written = c ++ deflateTail := by
  have htail := endsWithDeflateTail_iff written zeros
  split
  · rename_i hbad
    apply iff_of_false (by simp)
    intro heq
    have hsuf : deflateTail <:+ written := ⟨c, heq.symm⟩
    have hlen : 4 ≤ written.length := hsuf.length_le
    have := htail.mpr hsuf
    simp [this] at hbad
    omega
  · rename_i hok
    have hsuf : deflateTail <:+ written := by
      rw [← htail]
      simp at hok
      exact hok.2
    rw [Option.some.injEq, List.take_append_of_le_length (by omega), eq_take_sub_four hsuf]

lemma length_sub_four {s c : List UInt8} (h : s = c ++ deflateTail) : s.length - 4 = c.length := by
  rw [h]
  simp [deflateTail]

section Messages

variable {z : Zlib} {deflated inflated : List UInt8 → List UInt8}
  (hz : z.Documented deflated inflated)

include hz

lemma Rs.compressMessage_eq_some (m : List UInt8) (hm : m ≠ []) (c : List UInt8) :
    Rs.compressMessage z m = some c ↔ heldStream deflated m = c ++ deflateTail := by
  have hcall : z.deflateCall m (m.length + 32) = (.ok, heldStream deflated m) :=
    hz.deflate_call m _ (by omega)
  have hne : m.isEmpty = false := by simpa using hm
  have hstrip := stripTail_eq_some (heldStream deflated m) [] c
  rw [List.append_nil] at hstrip
  rw [Rs.compressMessage, hne, hcall]
  simp only [Bool.false_eq_true, if_false, reduceCtorEq]
  exact hstrip

lemma Cpp.compressMessage_eq_some (m : List UInt8) (hm : m ≠ []) (hsize : m.length + 32 < 2 ^ 32)
    (c : List UInt8) :
    Cpp.compressMessage z m = some c ↔ heldStream deflated m = c ++ deflateTail := by
  have hpos : m.length ≠ 0 := by simpa using hm
  have hin : m.length % 2 ^ 32 = m.length := Nat.mod_eq_of_lt (by omega)
  have hout : (m.length + 32) % 2 ^ 32 = m.length + 32 := Nat.mod_eq_of_lt hsize
  have hcall : z.deflateCall m (m.length + 32) = (.ok, heldStream deflated m) :=
    hz.deflate_call m _ (by omega)
  have hheld : (heldStream deflated m).length ≤ m.length + 32 := List.length_take_le _ _
  have hproduced : m.length + 32 - (m.length + 32 - (heldStream deflated m).length) =
      (heldStream deflated m).length := by omega
  simp only [Cpp.compressMessage, if_neg hpos, hin, hout, List.take_length, hcall, Cpp.filled,
    hproduced, ne_eq, not_true_eq_false, false_or]
  exact stripTail_eq_some _ _ c

/-- From 4 GiB on the count of produced bytes points behind what zlib wrote, at zeros, and
compression fails. -/
lemma Cpp.compressMessage_eq_none (m : List UInt8) (hsize : 2 ^ 32 ≤ m.length + 32) :
    Cpp.compressMessage z m = none := by
  have hpos : m.length ≠ 0 := by omega
  simp only [Cpp.compressMessage, if_neg hpos]
  rw [if_pos]
  generalize hin : m.take (m.length % 2 ^ 32) = input
  generalize hspace : (m.length + 32) % 2 ^ 32 = space
  have hlt : space < 2 ^ 32 := by omega
  rcases Nat.eq_zero_or_pos space with rfl | hspos
  · left
    rw [hz.deflate_no_space]
    simp
  · right
    right
    rw [hz.deflate_call input space hspos]
    simp only [Bool.not_eq_true']
    have hw : ((deflated input).take space).length ≤ space := List.length_take_le _ _
    generalize (deflated input).take space = w at hw
    -- the last byte tested is one of the buffer's zeros
    have hlast : (Cpp.filled (m.length + 32) w)[m.length + 32 - (space - w.length) - 1]?.getD 0
        = 0 := by
      rw [Cpp.filled, List.getElem?_append_right (by omega), List.getElem?_replicate]
      split <;> rfl
    simp [Cpp.endsWithDeflateTail, hlast]

/-! ## Decompression -/

lemma Rs.decompressMessage_eq (d : List UInt8) (hd : d ≠ [])
    (hok : (z.inflateCall (d ++ deflateTail) (d.length * 8 + 64)).1 ≠ .dataError) :
    Rs.decompressMessage z d =
      some ((inflated (d ++ deflateTail)).take (d.length * 8 + 64)) := by
  have hne : d.isEmpty = false := by simpa using hd
  simp only [Rs.decompressMessage, hne, Bool.false_eq_true, if_false, if_neg hok]
  rw [hz.inflate_call _ _ hok]

omit hz in
/-- Below 4 GiB the counters hold the sizes. -/
lemma Cpp.decompressMessage_of_lt (z : Zlib) (d : List UInt8) (hd : d ≠ [])
    (hsize : d.length * 8 + 64 < 2 ^ 32) :
    Cpp.decompressMessage z d =
      let r := z.inflateCall (d ++ deflateTail) (d.length * 8 + 64)
      if r.1 ≠ .ok ∧ r.1 ≠ .bufError then none
      else some ((filled (d.length * 8 + 64) r.2).take
        (d.length * 8 + 64 - (d.length * 8 + 64 - r.2.length))) := by
  have hpos : d.length ≠ 0 := by simpa using hd
  have hlen : (d ++ deflateTail).length = d.length + 4 := by simp [deflateTail]
  have hin : (d ++ deflateTail).length % 2 ^ 32 = (d ++ deflateTail).length :=
    Nat.mod_eq_of_lt (by omega)
  have hout : (d.length * 8 + 64) % 2 ^ 32 = d.length * 8 + 64 := Nat.mod_eq_of_lt hsize
  simp only [Cpp.decompressMessage, if_neg hpos, hin, hout, List.take_length]

lemma Cpp.decompressMessage_eq (d : List UInt8) (hd : d ≠ []) (hsize : d.length * 8 + 64 < 2 ^ 32)
    (hok : (z.inflateCall (d ++ deflateTail) (d.length * 8 + 64)).1 = .ok ∨
      (z.inflateCall (d ++ deflateTail) (d.length * 8 + 64)).1 = .bufError) :
    Cpp.decompressMessage z d =
      some ((inflated (d ++ deflateTail)).take (d.length * 8 + 64)) := by
  have hcall := hz.inflate_call (d ++ deflateTail) (d.length * 8 + 64) (by
    rcases hok with h | h <;> rw [h] <;> simp)
  simp only [Cpp.decompressMessage_of_lt z d hd hsize, hcall]
  rw [if_neg (by tauto)]
  have hw : ((inflated (d ++ deflateTail)).take (d.length * 8 + 64)).length ≤ d.length * 8 + 64 :=
    List.length_take_le _ _
  generalize (inflated (d ++ deflateTail)).take (d.length * 8 + 64) = w at hw
  have hproduced : d.length * 8 + 64 - (d.length * 8 + 64 - w.length) = w.length := by omega
  rw [hproduced, Cpp.filled, List.take_left]

/-- With an output buffer of 4 GiB or more, whatever is returned has at least 2^32 bytes. -/
lemma Cpp.le_length_of_decompressMessage {d out : List UInt8} (hd : d ≠ [])
    (hsize : 2 ^ 32 ≤ d.length * 8 + 64) (h : Cpp.decompressMessage z d = some out) :
    2 ^ 32 ≤ out.length := by
  have hpos : d.length ≠ 0 := by simpa using hd
  simp only [Cpp.decompressMessage, if_neg hpos] at h
  generalize hspace : (d.length * 8 + 64) % 2 ^ 32 = space at h
  generalize (d ++ deflateTail).take ((d ++ deflateTail).length % 2 ^ 32) = input at h
  split_ifs at h with hret
  have hcall := hz.inflate_call input space (by
    intro hbad
    rw [hbad] at hret
    simp at hret)
  have hw : ((inflated input).take space).length ≤ space := List.length_take_le _ _
  rw [hcall] at h
  generalize (inflated input).take space = w at h hw
  obtain rfl := Option.some.inj h
  rw [Cpp.filled, List.length_take, List.length_append, List.length_replicate]
  omega

/-! ## Round trips -/

/-- The message is what the decompression buffer holds of the inflated stream exactly when the
stream carries the message and the buffer holds it. -/
lemma take_inflated_eq_iff {m : List UInt8} (hm : m ≠ []) (space : ℕ) :
    (inflated (heldStream deflated m)).take space = m ↔
      inflated (heldStream deflated m) = m ∧ m.length ≤ space := by
  have hpre : inflated (heldStream deflated m) <+: m := by
    have h := hz.inflate_mono m _ (heldStream_within deflated m)
    rwa [hz.inflate_deflate m hm] at h
  constructor
  · intro h
    have hlen := congrArg List.length h
    rw [List.length_take] at hlen
    have heq : inflated (heldStream deflated m) = m :=
      hpre.eq_of_length_le (by omega)
    exact ⟨heq, by omega⟩
  · rintro ⟨heq, hle⟩
    rw [heq, List.take_of_length_le hle]

lemma inflate_held_ok {m c : List UInt8} (h : heldStream deflated m = c ++ deflateTail)
    (space : ℕ) :
    (z.inflateCall (c ++ deflateTail) space).1 = .ok ∨
      (z.inflateCall (c ++ deflateTail) space).1 = .bufError := by
  rw [← h]
  exact hz.inflate_ok m _ space (heldStream_within deflated m)

/-- The shape of both implementations: compression returns the held stream without its marker,
decompression what its buffer holds of the inflated stream. -/
lemma roundTrips_iff_of {compress decompress : List UInt8 → Option (List UInt8)} {m : List UInt8}
    (hm : m ≠ []) (hnil : decompress [] = some [])
    (hcomp : ∀ c, compress m = some c ↔ heldStream deflated m = c ++ deflateTail)
    (hdecomp : ∀ c, c ≠ [] → heldStream deflated m = c ++ deflateTail →
      decompress c = some ((inflated (c ++ deflateTail)).take (c.length * 8 + 64))) :
    RoundTrips compress decompress m ↔ BuffersSuffice deflated inflated m := by
  have hmsg : ∀ c, c ≠ [] → heldStream deflated m = c ++ deflateTail →
      (decompress c = some m ↔
        inflated (heldStream deflated m) = m ∧ m.length ≤ c.length * 8 + 64) := by
    intro c hc heq
    rw [hdecomp c hc heq, Option.some.injEq, ← heq, take_inflated_eq_iff hz hm]
  constructor
  · rintro ⟨c, hc, hdec⟩
    rw [hcomp] at hc
    rcases eq_or_ne c [] with rfl | hne
    · rw [hnil] at hdec
      exact absurd (Option.some.inj hdec).symm hm
    · obtain ⟨hwhole, hfit⟩ := (hmsg c hne hc).mp hdec
      exact ⟨⟨c, hc.symm⟩, hwhole, by rw [length_sub_four hc]; exact hfit⟩
  · rintro ⟨⟨c, hheld⟩, hwhole, hfit⟩
    refine ⟨c, (hcomp c).mpr hheld.symm, ?_⟩
    rcases eq_or_ne c [] with rfl | hne
    · -- the marker alone does not carry a message
      rw [← hheld, List.nil_append, hz.inflate_tail] at hwhole
      exact absurd hwhole.symm hm
    · rw [length_sub_four hheld.symm] at hfit
      exact (hmsg c hne hheld.symm).mpr ⟨hwhole, hfit⟩

lemma Rs.roundTrips_iff (m : List UInt8) :
    RoundTrips (Rs.compressMessage z) (Rs.decompressMessage z) m ↔
      m = [] ∨ BuffersSuffice deflated inflated m := by
  rcases eq_or_ne m [] with rfl | hm
  · exact iff_of_true ⟨[], rfl, rfl⟩ (.inl rfl)
  · have hdecomp : ∀ c, c ≠ [] → heldStream deflated m = c ++ deflateTail →
        Rs.decompressMessage z c =
          some ((inflated (c ++ deflateTail)).take (c.length * 8 + 64)) := by
      intro c hc heq
      have hok := inflate_held_ok hz heq (c.length * 8 + 64)
      exact Rs.decompressMessage_eq hz c hc (by rcases hok with h | h <;> rw [h] <;> simp)
    have key : RoundTrips (Rs.compressMessage z) (Rs.decompressMessage z) m ↔
        BuffersSuffice deflated inflated m :=
      roundTrips_iff_of hz hm rfl (Rs.compressMessage_eq_some hz m hm) hdecomp
    rw [key]
    exact ⟨.inr, fun h => h.resolve_left hm⟩

lemma Cpp.roundTrips_iff (m : List UInt8) :
    RoundTrips (Cpp.compressMessage z) (Cpp.decompressMessage z) m ↔
      m = [] ∨ (BuffersSuffice deflated inflated m ∧ CountersSuffice deflated m) := by
  rcases eq_or_ne m [] with rfl | hm
  · exact iff_of_true ⟨[], rfl, rfl⟩ (.inl rfl)
  by_cases hcount : CountersSuffice deflated m
  · have hdecomp : ∀ c, c ≠ [] → heldStream deflated m = c ++ deflateTail →
        Cpp.decompressMessage z c =
          some ((inflated (c ++ deflateTail)).take (c.length * 8 + 64)) := by
      intro c hc heq
      have hok := inflate_held_ok hz heq (c.length * 8 + 64)
      exact Cpp.decompressMessage_eq hz c hc (length_sub_four heq ▸ hcount.2) hok
    have key : RoundTrips (Cpp.compressMessage z) (Cpp.decompressMessage z) m ↔
        BuffersSuffice deflated inflated m :=
      roundTrips_iff_of hz hm rfl (Cpp.compressMessage_eq_some hz m hm hcount.1) hdecomp
    rw [key]
    exact ⟨fun h => .inr ⟨h, hcount⟩, fun h => (h.resolve_left hm).1⟩
  · refine iff_of_false ?_ (by tauto)
    rintro ⟨c, hc, hdec⟩
    rcases Nat.lt_or_ge (m.length + 32) (2 ^ 32) with hsmall | hbig
    · -- the decompression buffer is the one that is too large
      rw [Cpp.compressMessage_eq_some hz m hm hsmall] at hc
      have hbig : 2 ^ 32 ≤ c.length * 8 + 64 := by
        rw [← length_sub_four hc]
        exact Nat.not_lt.mp fun h => hcount ⟨hsmall, h⟩
      have hne : c ≠ [] := by
        rintro rfl
        simp at hbig
      have := Cpp.le_length_of_decompressMessage hz hne hbig hdec
      omega
    · rw [Cpp.compressMessage_eq_none hz m hbig] at hc
      simp at hc

/-! ## Whole outputs -/

lemma Rs.returnsWhole_iff (d : List UInt8) (hd : d ≠ []) :
    ReturnsWhole (Rs.decompressMessage z) inflated d ↔
      (z.inflateCall (d ++ deflateTail) (d.length * 8 + 64)).1 = .dataError ∨
        (inflated (d ++ deflateTail)).length ≤ d.length * 8 + 64 := by
  have hne : d.isEmpty = false := by simpa using hd
  by_cases hok : (z.inflateCall (d ++ deflateTail) (d.length * 8 + 64)).1 = .dataError
  · refine iff_of_true ?_ (.inl hok)
    intro out h
    simp [Rs.decompressMessage, hne, hok] at h
  · rw [ReturnsWhole, Rs.decompressMessage_eq hz d hd hok]
    simp [hok, eq_comm]

lemma Cpp.returnsWhole_iff (d : List UInt8) (hd : d ≠ []) (hsize : d.length * 8 + 64 < 2 ^ 32) :
    ReturnsWhole (Cpp.decompressMessage z) inflated d ↔
      ((z.inflateCall (d ++ deflateTail) (d.length * 8 + 64)).1 ≠ .ok ∧
        (z.inflateCall (d ++ deflateTail) (d.length * 8 + 64)).1 ≠ .bufError) ∨
        (inflated (d ++ deflateTail)).length ≤ d.length * 8 + 64 := by
  by_cases hok : (z.inflateCall (d ++ deflateTail) (d.length * 8 + 64)).1 = .ok ∨
      (z.inflateCall (d ++ deflateTail) (d.length * 8 + 64)).1 = .bufError
  · rw [ReturnsWhole, Cpp.decompressMessage_eq hz d hd hsize hok]
    have : ¬((z.inflateCall (d ++ deflateTail) (d.length * 8 + 64)).1 ≠ .ok ∧
        (z.inflateCall (d ++ deflateTail) (d.length * 8 + 64)).1 ≠ .bufError) := by tauto
    rw [or_iff_right this]
    simp [eq_comm]
  · have hbad : (z.inflateCall (d ++ deflateTail) (d.length * 8 + 64)).1 ≠ .ok ∧
        (z.inflateCall (d ++ deflateTail) (d.length * 8 + 64)).1 ≠ .bufError := by tauto
    refine iff_of_true ?_ (.inl hbad)
    intro out h
    simp only [Cpp.decompressMessage_of_lt z d hd hsize] at h
    rw [if_pos hbad] at h
    simp at h

end Messages

/-- **When permessage-deflate keeps a message.**  A message comes back exactly when it is empty
or both fixed-size buffers suffice for it, in wscpp also within zlib's 32-bit counters; and a
successful decompression returns the whole message exactly when that fits its buffer.  In
wscpp the last holds below 4 GiB of buffer; from there on a success returns at least 2^32 bytes
whatever the message is, so none shorter than that comes back. -/
theorem deflate_round_trip_iff (z : Zlib) (deflated inflated : List UInt8 → List UInt8)
    (hz : z.Documented deflated inflated) :
    (∀ m, RoundTrips (Cpp.compressMessage z) (Cpp.decompressMessage z) m ↔
      m = [] ∨ (BuffersSuffice deflated inflated m ∧ CountersSuffice deflated m)) ∧
    (∀ m, RoundTrips (Rs.compressMessage z) (Rs.decompressMessage z) m ↔
      m = [] ∨ BuffersSuffice deflated inflated m) ∧
    (∀ d, d ≠ [] → d.length * 8 + 64 < 2 ^ 32 →
      (ReturnsWhole (Cpp.decompressMessage z) inflated d ↔
        ((z.inflateCall (d ++ deflateTail) (d.length * 8 + 64)).1 ≠ .ok ∧
          (z.inflateCall (d ++ deflateTail) (d.length * 8 + 64)).1 ≠ .bufError) ∨
          (inflated (d ++ deflateTail)).length ≤ d.length * 8 + 64)) ∧
    (∀ d, d ≠ [] →
      (ReturnsWhole (Rs.decompressMessage z) inflated d ↔
        (z.inflateCall (d ++ deflateTail) (d.length * 8 + 64)).1 = .dataError ∨
          (inflated (d ++ deflateTail)).length ≤ d.length * 8 + 64)) ∧
    (∀ d out, d ≠ [] → 2 ^ 32 ≤ d.length * 8 + 64 → Cpp.decompressMessage z d = some out →
      2 ^ 32 ≤ out.length) :=
  ⟨Cpp.roundTrips_iff hz, Rs.roundTrips_iff hz, Cpp.returnsWhole_iff hz, Rs.returnsWhole_iff hz,
    fun _ _ => Cpp.le_length_of_decompressMessage hz⟩

/-! ## A codec that agrees with zlib on two messages -/

/-- Two hundred times the letter `a`. -/
def runOfA : List UInt8 := List.replicate 200 0x61

/-- The sync-flushed raw deflate stream zlib makes of `runOfA`. -/
def runOfAStream : List UInt8 := [0x4a, 0x4c, 0x1c, 0x1e, 0x00, 0x00, 0x00, 0x00, 0xff, 0xff]

/-- The text of the RFC 7692 vector in `test_permessage_deflate.cpp`. -/
def hello : List UInt8 := [0x48, 0x65, 0x6c, 0x6c, 0x6f]

/-- The stream of `hello`; without the marker it is the vector's expected bytes. -/
def helloStream : List UInt8 :=
  [0xf2, 0x48, 0xcd, 0xc9, 0xc9, 0x07, 0x00, 0x00, 0x00, 0xff, 0xff]

/-- The two known streams; every other message is stored as it is behind a byte `01`. -/
def storedDeflated (m : List UInt8) : List UInt8 :=
  if m = runOfA then runOfAStream
  else if m = hello then helloStream
  else 0x01 :: m ++ deflateTail

/-- The inverse of `storedDeflated`, defined on every input. -/
def storedInflated (s : List UInt8) : List UInt8 :=
  if s.head? = some 0x01 then (s.drop 1).take (s.length - 5)
  else if s = runOfAStream then runOfA
  else if s = helloStream then hello
  else []

/-- A zlib whose calls write the first bytes that fit. -/
def storedZlib : Zlib where
  deflateCall m space := if space = 0 then (.bufError, []) else (.ok, (storedDeflated m).take space)
  inflateCall s space := (.ok, (storedInflated s).take space)

lemma storedInflated_stored (m : List UInt8) : storedInflated (0x01 :: m ++ deflateTail) = m := by
  simp [storedInflated, deflateTail]

lemma storedInflated_within {m s : List UInt8} (h : s <+: 0x01 :: m ++ deflateTail) :
    storedInflated s <+: m := by
  obtain ⟨t, ht⟩ := h
  cases s with
  | nil => exact List.nil_prefix
  | cons b s =>
      simp only [List.cons_append, List.cons.injEq] at ht
      obtain ⟨rfl, ht⟩ := ht
      have hlen := congrArg List.length ht
      simp only [List.length_append, deflateTail, List.length_cons, List.length_nil] at hlen
      have htake : (s ++ t).take (s.length - 4) = s.take (s.length - 4) :=
        List.take_append_of_le_length (by omega)
      have heq : storedInflated (0x01 :: s) = m.take (s.length - 4) := by
        simp only [storedInflated, List.head?_cons, if_true, List.drop_succ_cons, List.drop_zero,
          List.length_cons]
        rw [show s.length + 1 - 5 = s.length - 4 by omega, ← htake, ht,
          List.take_append_of_le_length (by omega)]
      rw [heq]
      exact List.take_prefix _ _

/-- Of a stream that does not begin with `01`, only the whole inflates to anything. -/
lemma storedInflated_known {s t : List UInt8} (ht : t.head? ≠ some 0x01)
    (hp : ∀ u, u <+: t → u ≠ t → u ≠ runOfAStream ∧ u ≠ helloStream) (h : s <+: t) :
    storedInflated s <+: storedInflated t := by
  rcases eq_or_ne s t with rfl | hne
  · exact List.prefix_rfl
  · have hhead : s.head? ≠ some 0x01 := by
      obtain ⟨r, rfl⟩ := h
      cases s with
      | nil => simp
      | cons b s => simpa using ht
    obtain ⟨h1, h2⟩ := hp s h hne
    rw [storedInflated, if_neg hhead, if_neg h1, if_neg h2]
    exact List.nil_prefix

lemma storedZlib_documented : storedZlib.Documented storedDeflated storedInflated where
  deflate_call m space h := by simp [storedZlib, Nat.pos_iff_ne_zero.mp h]
  deflate_no_space m := by simp [storedZlib]
  deflate_tail m _ := by
    rw [storedDeflated]
    split_ifs
    · exact ⟨[0x4a, 0x4c, 0x1c, 0x1e, 0x00, 0x00], rfl⟩
    · exact ⟨[0xf2, 0x48, 0xcd, 0xc9, 0xc9, 0x07, 0x00], rfl⟩
    · exact List.suffix_append _ _
  inflate_call s space _ := rfl
  inflate_ok m s space _ := .inl rfl
  inflate_deflate m _ := by
    rw [storedDeflated]
    split_ifs with h1 h2
    · rw [h1]
      decide +kernel
    · rw [h2]
      decide +kernel
    · exact storedInflated_stored m
  inflate_mono m s h := by
    -- neither known stream is a proper prefix of the other or of itself
    have hshort : ∀ t : List UInt8, (∀ u ∈ t.inits, u ≠ t → u ≠ runOfAStream ∧
        u ≠ helloStream) → ∀ u, u <+: t → u ≠ t → u ≠ runOfAStream ∧ u ≠ helloStream :=
      fun t ht u hu => ht u ((List.mem_inits u t).mpr hu)
    rw [storedDeflated] at h ⊢
    split_ifs at h ⊢ with h1 h2
    · exact storedInflated_known (by decide) (hshort _ (by decide +kernel)) h
    · exact storedInflated_known (by decide) (hshort _ (by decide +kernel)) h
    · rw [storedInflated_stored]
      exact storedInflated_within h
  inflate_tail := by decide

/-- The RFC 7692 vector is kept by both implementations. -/
theorem deflate_round_trip_hello :
    storedZlib.Documented storedDeflated storedInflated ∧ storedDeflated hello = helloStream ∧
    RoundTrips (Cpp.compressMessage storedZlib) (Cpp.decompressMessage storedZlib) hello ∧
    RoundTrips (Rs.compressMessage storedZlib) (Rs.decompressMessage storedZlib) hello := by
  have key := deflate_round_trip_iff storedZlib storedDeflated storedInflated
    storedZlib_documented
  have hheld : heldStream storedDeflated hello = helloStream := by decide +kernel
  have hsuffice : BuffersSuffice storedDeflated storedInflated hello := by
    rw [BuffersSuffice, hheld]
    exact ⟨⟨[0xf2, 0x48, 0xcd, 0xc9, 0xc9, 0x07, 0x00], rfl⟩, by decide +kernel, by decide⟩
  have hcount : CountersSuffice storedDeflated hello := by
    rw [CountersSuffice, hheld]
    decide
  exact ⟨storedZlib_documented, by decide +kernel, (key.1 hello).mpr (.inr ⟨hsuffice, hcount⟩),
    (key.2.1 hello).mpr (.inr hsuffice)⟩

/-- **A message that does not come back.**  zlib packs two hundred `a`s into six bytes and the
marker; decompression has 112 bytes of space and reports success with the first 112 `a`s. -/
theorem deflate_loses_long_run :
    storedZlib.Documented storedDeflated storedInflated ∧
    storedDeflated runOfA = runOfAStream ∧
    Cpp.compressMessage storedZlib runOfA = some (runOfAStream.take 6) ∧
    Cpp.decompressMessage storedZlib (runOfAStream.take 6) = some (List.replicate 112 0x61) ∧
    Rs.decompressMessage storedZlib (runOfAStream.take 6) = some (List.replicate 112 0x61) ∧
    ¬ RoundTrips (Cpp.compressMessage storedZlib) (Cpp.decompressMessage storedZlib) runOfA ∧
    ¬ RoundTrips (Rs.compressMessage storedZlib) (Rs.decompressMessage storedZlib) runOfA := by
  have hheld : heldStream storedDeflated runOfA = runOfAStream := by decide +kernel
  have hsuffice : ¬ BuffersSuffice storedDeflated storedInflated runOfA := by
    rintro ⟨-, -, hfit⟩
    rw [hheld] at hfit
    revert hfit
    decide +kernel
  have hne : runOfA ≠ [] := by decide +kernel
  refine ⟨storedZlib_documented, by decide +kernel, by decide +kernel, by decide +kernel,
    by decide +kernel, ?_, ?_⟩
  · rw [Cpp.roundTrips_iff storedZlib_documented]
    exact fun h => h.elim hne fun h => hsuffice h.1
  · rw [Rs.roundTrips_iff storedZlib_documented]
    exact fun h => h.elim hne hsuffice

end Wscpp
