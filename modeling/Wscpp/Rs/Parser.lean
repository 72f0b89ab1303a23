import Wscpp.Lib.Incremental
import Wscpp.Frame.Builder
import Mathlib.Tactic.SplitIfs

/-!
# The ws-rs frame parser

`frame/parser.rs` keeps four fields between calls: which part of a frame comes next, the header
read so far, how much payload is missing, and the payload read so far.  `Parser.sub` is the
`match self.state` of `Parser::parse`, with one definition per sub-parser, and `Parser.parse`
runs it in the loop of `Wscpp.Incremental`: while bytes remain, until a result or no progress.
`ParseResult::Incomplete` is `none`; the other two results are `Done`.

The width of `usize` is a parameter, since `parse_payload` narrows the missing length to it.

Two facts about the parser carry everything above it.  It splits (`Parser.splits`), so its
result does not depend on how the stream is cut; and at a frame boundary it reads exactly one
frame of the wire format (`Parser.outcome_encode` and its siblings for frames it refuses).  A
frame without payload is the exception that the loop condition makes: it is only reported once
a further byte is there (`Parser.outcome_encode_pending`).
-/

namespace Wscpp.Rs

open Words Incremental

/-! ## Data -/

/-- `FrameHeader`. -/
structure FrameHeader where
  fin : Bool
  rsv1 : Bool
  rsv2 : Bool
  rsv3 : Bool
  opcode : Opcode
  mask : Bool
  payloadLen : ℕ
  maskingKey : Key
  deriving DecidableEq, Repr

/-- `FrameHeader::default`. -/
def FrameHeader.default : FrameHeader where
  fin := false
  rsv1 := false
  rsv2 := false
  rsv3 := false
  opcode := .text
  mask := false
  payloadLen := 0
  maskingKey := Key.zero

/-- `Frame`: header and unmasked payload. -/
structure Frame where
  header : FrameHeader
  payload : List UInt8
  deriving DecidableEq, Repr

/-- The two results that end a call to `parse`. -/
inductive Done
  | complete
  | error
  deriving DecidableEq, Repr

/-- What the parser expects next. -/
inductive State
  | header
  | payloadLengthExt
  | maskingKey
  | payload
  deriving DecidableEq, Repr

/-- `Parser`. -/
structure Parser where
  state : State
  header : FrameHeader
  payloadRemaining : ℕ
  buffer : List UInt8
  deriving DecidableEq, Repr

namespace Parser

/-- `Parser::new`. -/
def new : Parser where
  state := .header
  header := .default
  payloadRemaining := 0
  buffer := []

/-! ## Sub-parsers -/

/-- The state after the length is known. -/
def afterLength (mask : Bool) : State := if mask then .maskingKey else .payload

/-- `parse_header`.  A reserved opcode is an error that consumes nothing, with the flag bits
already stored. -/
def parseHeader (p : Parser) : List UInt8 → Parser × Option Done × ℕ
  | first :: second :: _ =>
      let h := { p.header with
        fin := first &&& 0x80 != 0
        rsv1 := first &&& 0x40 != 0
        rsv2 := first &&& 0x20 != 0
        rsv3 := first &&& 0x10 != 0 }
      match Opcode.fromU8 (first &&& 0x0F) with
      | none => ({ p with header := h }, some .error, 0)
      | some op =>
          let h := { h with
            opcode := op
            mask := second &&& 0x80 != 0
            payloadLen := (second &&& 0x7F).toNat }
          if h.payloadLen ≤ 125 then
            ({ state := afterLength h.mask, header := h, payloadRemaining := h.payloadLen,
               buffer := [] }, none, 2)
          else ({ p with state := .payloadLengthExt, header := h, payloadRemaining := 0 }, none, 2)
  | _ => (p, none, 0)

/-- The end of `parse_payload_length`, once the length `n` is read from `k` bytes. -/
def setPayloadLength (p : Parser) (n k : ℕ) : Parser × Option Done × ℕ :=
  let h := { p.header with payloadLen := n }
  if n > 0x7FFFFFFFFFFFFFFF then ({ p with header := h }, some .error, k)
  else
    ({ state := afterLength h.mask, header := h, payloadRemaining := n, buffer := [] }, none, k)

/-- `parse_payload_length`. -/
def parsePayloadLength (p : Parser) (data : List UInt8) : Parser × Option Done × ℕ :=
  if p.header.payloadLen % 128 = 126 then
    if data.length < 2 then (p, none, 0) else setPayloadLength p (beFold (data.take 2)) 2
  else
    if data.length < 8 then (p, none, 0) else setPayloadLength p (beFold (data.take 8)) 8

/-- `parse_masking_key`. -/
def parseMaskingKey (p : Parser) : List UInt8 → Parser × Option Done × ℕ
  | k0 :: k1 :: k2 :: k3 :: _ =>
      let h := { p.header with maskingKey := ⟨k0, k1, k2, k3⟩ }
      ({ p with state := .payload, header := h, payloadRemaining := h.payloadLen }, none, 4)
  | _ => (p, none, 0)

/-- The bytes appended to the buffer for a piece of the payload at `offset`. -/
def unmaskPiece (h : FrameHeader) (offset : ℕ) (piece : List UInt8) : List UInt8 :=
  if h.mask then copyAndUnmask h.maskingKey offset piece else piece

/-- `parse_payload`; `self.payload_remaining as usize` keeps the low `bits` bits. -/
def parsePayload (bits : ℕ) (p : Parser) (data : List UInt8) : Parser × Option Done × ℕ :=
  if p.payloadRemaining = 0 then ({ p with state := .header }, some .complete, 0)
  else
    let toRead := min (p.payloadRemaining % 2 ^ bits) data.length
    let offset := p.buffer.length
    let p := { p with
      buffer := p.buffer ++ unmaskPiece p.header offset (data.take toRead)
      payloadRemaining := p.payloadRemaining - toRead }
    if p.payloadRemaining = 0 then ({ p with state := .header }, some .complete, toRead)
    else (p, none, toRead)

/-- One turn of the loop of `Parser::parse`. -/
def sub (bits : ℕ) (p : Parser) (data : List UInt8) : Parser × Option Done × ℕ :=
  match p.state with
  | .header => parseHeader p data
  | .payloadLengthExt => parsePayloadLength p data
  | .maskingKey => parseMaskingKey p data
  | .payload => parsePayload bits p data

/-- `Parser::parse`: the parser afterwards, the result (`none` for `Incomplete`) and the number
of bytes consumed. -/
def parse (bits : ℕ) (p : Parser) (data : List UInt8) : Parser × Option Done × ℕ :=
  pump (sub bits) p data

/-- `Parser::take_frame`: the completed frame, and the parser without its buffer. -/
def takeFrame (p : Parser) : Frame × Parser :=
  (⟨p.header, p.buffer⟩, { p with buffer := [] })

/-! ## Splitting

The sub-parsers for the header, the extended length and the key look at a fixed number of bytes
and ignore the rest.  The payload sub-parser takes what there is, and taking a piece and then
another is taking both. -/

/-- The shape of a sub-parser that looks at a fixed number of bytes: it stalls on fewer and is
unaffected by more. -/
structure Fixed (f : Parser → List UInt8 → Parser × Option Done × ℕ) : Prop where
  eaten_le : ∀ p a, (f p a).2.2 ≤ a.length
  stall : ∀ p a, f p a = (p, none, 0) ∨ ((f p a).2.1 = none → (f p a).2.2 ≠ 0)
  extend : ∀ p a b, f p a ≠ (p, none, 0) → f p (a ++ b) = f p a

lemma fixed_parseHeader : Fixed parseHeader where
  eaten_le p a := by
    rcases a with _ | ⟨x, _ | ⟨y, a⟩⟩
    · simp [parseHeader]
    · simp [parseHeader]
    · simp only [parseHeader]
      split
      · simp
      · split <;> simp
  stall p a := by
    rcases a with _ | ⟨x, _ | ⟨y, a⟩⟩
    · exact .inl rfl
    · exact .inl rfl
    · right
      simp only [parseHeader]
      split
      · simp
      · split <;> simp
  extend p a b h := by
    rcases a with _ | ⟨x, _ | ⟨y, a⟩⟩
    · exact absurd rfl h
    · exact absurd rfl h
    · rfl

lemma setPayloadLength_eaten (p : Parser) (n k : ℕ) : (setPayloadLength p n k).2.2 = k := by
  rw [setPayloadLength]
  split <;> rfl

lemma fixed_parsePayloadLength : Fixed parsePayloadLength where
  eaten_le p a := by
    rw [parsePayloadLength]
    split_ifs
    · simp
    · rw [setPayloadLength_eaten]
      omega
    · simp
    · rw [setPayloadLength_eaten]
      omega
  stall p a := by
    rw [parsePayloadLength]
    split_ifs
    · exact .inl rfl
    · exact .inr fun _ => by rw [setPayloadLength_eaten]; omega
    · exact .inl rfl
    · exact .inr fun _ => by rw [setPayloadLength_eaten]; omega
  extend p a b h := by
    rw [parsePayloadLength] at h
    rw [parsePayloadLength, parsePayloadLength]
    split_ifs at h ⊢ with h1 h2 h3 h4 h5 h6
    all_goals first
      | exact absurd rfl h
      | (simp at *; omega)
      | rw [List.take_append_of_le_length (by omega)]

lemma fixed_parseMaskingKey : Fixed parseMaskingKey where
  eaten_le p a := by
    rcases a with _ | ⟨x, _ | ⟨y, _ | ⟨z, _ | ⟨w, a⟩⟩⟩⟩ <;> simp [parseMaskingKey]
  stall p a := by
    rcases a with _ | ⟨x, _ | ⟨y, _ | ⟨z, _ | ⟨w, a⟩⟩⟩⟩ <;> simp [parseMaskingKey]
  extend p a b h := by
    rcases a with _ | ⟨x, _ | ⟨y, _ | ⟨z, _ | ⟨w, a⟩⟩⟩⟩
    · exact absurd rfl h
    · exact absurd rfl h
    · exact absurd rfl h
    · exact absurd rfl h
    · rfl

lemma unmaskPiece_append (h : FrameHeader) (o : ℕ) (a b : List UInt8) :
    unmaskPiece h o (a ++ b) = unmaskPiece h o a ++ unmaskPiece h (o + a.length) b := by
  rw [unmaskPiece, unmaskPiece, unmaskPiece]
  split
  · simp only [copyAndUnmask, Mask.copyAndUnmask_eq, Mask.xorKey_append]
  · rfl

@[simp] lemma length_unmaskPiece (h : FrameHeader) (o : ℕ) (a : List UInt8) :
    (unmaskPiece h o a).length = a.length := by
  rw [unmaskPiece]
  split
  · simp [copyAndUnmask, Mask.copyAndUnmask_eq]
  · rfl

@[simp] lemma unmaskPiece_nil (h : FrameHeader) (o : ℕ) : unmaskPiece h o [] = [] :=
  List.eq_nil_of_length_eq_zero (length_unmaskPiece h o [])

lemma sub_mod_of_le {n m x : ℕ} (h : x ≤ n % m) : (n - x) % m = n % m - x := by
  rcases Nat.eq_zero_or_pos m with rfl | hm
  · simp
  · have hlt : n % m < m := Nat.mod_lt n hm
    have hsplit : n - x = n % m - x + m * (n / m) := by
      have := Nat.mod_add_div n m
      omega
    rw [hsplit, Nat.add_mul_mod_self_left, Nat.mod_eq_of_lt (by omega)]

lemma parsePayload_eaten_le (bits : ℕ) (p : Parser) (a : List UInt8) :
    (parsePayload bits p a).2.2 ≤ a.length := by
  simp only [parsePayload]
  split_ifs
  · exact Nat.zero_le _
  · exact Nat.min_le_right _ _
  · exact Nat.min_le_right _ _

lemma parsePayload_stall {bits : ℕ} {p q : Parser} {a : List UInt8}
    (h : parsePayload bits p a = (q, none, 0)) : q = p := by
  simp only [parsePayload] at h
  split_ifs at h with h0 h1
  · simp at h
  · simp at h
  · simp only [Prod.mk.injEq, true_and] at h
    obtain ⟨rfl, hk⟩ := h
    simp [hk]

/-- Bytes behind a piece that has all `n` bytes change nothing in what is taken. -/
lemma taken_append {n : ℕ} {a : List UInt8} (b : List UInt8) (h : n ≤ a.length) :
    min n (a ++ b).length = min n a.length ∧
      (a ++ b).take (min n a.length) = a.take (min n a.length) := by
  constructor
  · rw [List.length_append]
    omega
  · exact List.take_append_of_le_length (Nat.min_le_right _ _)

lemma parsePayload_stop {bits : ℕ} {p q : Parser} {a : List UInt8} {r : Done} {k : ℕ}
    (b : List UInt8) (h : parsePayload bits p a = (q, some r, k)) :
    parsePayload bits p (a ++ b) = (q, some r, k) := by
  simp only [parsePayload] at h ⊢
  split_ifs at h with h0 h1
  · rw [if_pos h0, h]
  · -- the whole missing length was there
    have hmod : p.payloadRemaining % 2 ^ bits ≤ p.payloadRemaining := Nat.mod_le _ _
    obtain ⟨hread, htake⟩ := taken_append (n := p.payloadRemaining % 2 ^ bits) (a := a) b (by omega)
    rw [if_neg h0, hread, if_pos h1, htake, h]
  · simp at h

lemma parsePayload_eat {bits : ℕ} {p q : Parser} {a : List UInt8} {k : ℕ} (b : List UInt8)
    (h : parsePayload bits p a = (q, none, k + 1)) :
    parsePayload bits p (a ++ b) = (q, none, k + 1) ∨
      (k + 1 = a.length ∧ q.state = p.state ∧
        parsePayload bits p (a ++ b) =
          ((parsePayload bits q b).1, (parsePayload bits q b).2.1,
            k + 1 + (parsePayload bits q b).2.2)) := by
  simp only [parsePayload] at h
  split_ifs at h with h0 h1
  · simp at h
  · simp at h
  simp only [Prod.mk.injEq, true_and] at h
  obtain ⟨rfl, hk⟩ := h
  rw [← hk]
  by_cases hle : p.payloadRemaining % 2 ^ bits ≤ a.length
  · -- the narrowed length was there: the same bytes are taken
    left
    obtain ⟨hread, htake⟩ := taken_append b hle
    simp only [parsePayload, if_neg h0, hread, if_neg h1, htake]
  · right
    have hmin : min (p.payloadRemaining % 2 ^ bits) a.length = a.length := by omega
    rw [hmin] at h1
    refine ⟨hmin, rfl, ?_⟩
    have hmod : (p.payloadRemaining - a.length) % 2 ^ bits =
        p.payloadRemaining % 2 ^ bits - a.length := sub_mod_of_le (by omega)
    have hread : min (p.payloadRemaining % 2 ^ bits) (a.length + b.length) =
        a.length + min (p.payloadRemaining % 2 ^ bits - a.length) b.length := by
      omega
    have htake : ∀ n, (a ++ b).take (a.length + n) = a ++ b.take n := fun n =>
      List.take_length_add_append n
    simp only [parsePayload, if_neg h0, hmin, if_neg h1, hmod, hread, htake, List.take_length,
      unmaskPiece_append, List.length_append, length_unmaskPiece, List.append_assoc,
      Nat.sub_sub]
    split_ifs <;> rfl

lemma Fixed.stop {f : Parser → List UInt8 → Parser × Option Done × ℕ} (hf : Fixed f)
    {p q : Parser} {a : List UInt8} {r : Done} {k : ℕ} (b : List UInt8)
    (h : f p a = (q, some r, k)) : f p (a ++ b) = (q, some r, k) := by
  rw [hf.extend p a b (by rw [h]; simp), h]

lemma Fixed.eat {f : Parser → List UInt8 → Parser × Option Done × ℕ} (hf : Fixed f)
    {p q : Parser} {a : List UInt8} {k : ℕ} (b : List UInt8)
    (h : f p a = (q, none, k + 1)) : f p (a ++ b) = (q, none, k + 1) := by
  rw [hf.extend p a b (by rw [h]; simp), h]

lemma Fixed.eq_of_stall {f : Parser → List UInt8 → Parser × Option Done × ℕ} (hf : Fixed f)
    {p q : Parser} {a : List UInt8} (h : f p a = (q, none, 0)) : q = p := by
  rcases hf.stall p a with h' | h'
  · rw [h'] at h
    exact (Prod.mk.inj h).1.symm
  · rw [h] at h'
    exact absurd rfl (h' rfl)

/-- **The parser splits**: its result does not depend on how its input is cut. -/
lemma splits (bits : ℕ) : Splits (sub bits) where
  eaten_le p a := by
    rw [sub]
    split
    · exact fixed_parseHeader.eaten_le p a
    · exact fixed_parsePayloadLength.eaten_le p a
    · exact fixed_parseMaskingKey.eaten_le p a
    · exact parsePayload_eaten_le bits p a
  stall p a q h := by
    rw [sub] at h
    split at h
    · exact fixed_parseHeader.eq_of_stall h
    · exact fixed_parsePayloadLength.eq_of_stall h
    · exact fixed_parseMaskingKey.eq_of_stall h
    · exact parsePayload_stall h
  stop p a b q r k _ h := by
    rw [sub] at h ⊢
    split at h
    · exact fixed_parseHeader.stop b h
    · exact fixed_parsePayloadLength.stop b h
    · exact fixed_parseMaskingKey.stop b h
    · exact parsePayload_stop b h
  eat p a b q k _ h := by
    rw [sub] at h ⊢
    split at h
    · exact .inl (fixed_parseHeader.eat b h)
    · exact .inl (fixed_parsePayloadLength.eat b h)
    · exact .inl (fixed_parseMaskingKey.eat b h)
    · rename_i hstate
      -- the payload is the only part that takes whatever there is
      rcases parsePayload_eat b h with hsame | ⟨hall, hq, hresume⟩
      · exact .inl hsame
      · right
        rw [sub, hq, hstate]
        exact ⟨hall, hresume⟩

/-! ## Reading a frame

`Reading p pre` says that the parser has read exactly `pre` of the current frame.  Every turn
keeps it, and a turn that completes has read exactly the byte string of the frame it reports. -/

/-- The first two bytes of a frame and its extended length. -/
def headBytes (h : FrameHeader) (form : LenForm) : List UInt8 :=
  firstByte h.fin h.rsv1 h.rsv2 h.rsv3 h.opcode.toU8 ::
    secondByte h.mask (form.code h.payloadLen) :: form.bytes h.payloadLen

/-- What the parser has read of the current frame. -/
def Reading (p : Parser) (pre : List UInt8) : Prop :=
  match p.state with
  | .header => pre = []
  | .payloadLengthExt =>
      (p.header.payloadLen = 126 ∨ p.header.payloadLen = 127) ∧
        pre = [firstByte p.header.fin p.header.rsv1 p.header.rsv2 p.header.rsv3
          p.header.opcode.toU8, secondByte p.header.mask p.header.payloadLen]
  | .maskingKey =>
      p.header.mask = true ∧ p.buffer = [] ∧ p.payloadRemaining = p.header.payloadLen ∧
        ∃ form : LenForm, form.Holds p.header.payloadLen ∧ pre = headBytes p.header form
  | .payload =>
      p.buffer.length + p.payloadRemaining = p.header.payloadLen ∧
        ∃ form : LenForm, form.Holds p.header.payloadLen ∧
          pre = headBytes p.header form ++ keyBytes (keyIf p.header.mask p.header.maskingKey) ++
            maskedWith (keyIf p.header.mask p.header.maskingKey) p.buffer

end Parser

/-- `bs` is the byte string of the frame `fr`, in one of the ways to write its length. -/
def Frame.EncodedAs (fr : Frame) (bs : List UInt8) : Prop :=
  fr.header.payloadLen = fr.payload.length ∧
    ∃ form : LenForm, form.Holds fr.payload.length ∧
      bs = encodeParts fr.header.fin fr.header.rsv1 fr.header.rsv2 fr.header.rsv3
        fr.header.opcode.toU8 form (keyIf fr.header.mask fr.header.maskingKey) fr.payload

namespace Parser

/-- Once the length is known, whatever form it was written in. -/
lemma reading_afterLength {p : Parser} {form : LenForm} {pre : List UInt8}
    (hstate : p.state = afterLength p.header.mask) (hrem : p.payloadRemaining = p.header.payloadLen)
    (hbuf : p.buffer = []) (hform : form.Holds p.header.payloadLen)
    (hpre : pre = headBytes p.header form) : Reading p pre := by
  rw [afterLength] at hstate
  split at hstate
  · rename_i hmask
    rw [Reading, hstate]
    exact ⟨hmask, hbuf, hrem, form, hform, hpre⟩
  · rename_i hmask
    rw [Reading, hstate]
    refine ⟨by simp [hbuf, hrem], form, hform, ?_⟩
    simp [hmask, hbuf, hpre, keyIf, keyBytes, maskedWith]

lemma reading_parseHeader {p q : Parser} {pre a : List UInt8} {k : ℕ}
    (hstate : p.state = .header) (hr : Reading p pre)
    (h : parseHeader p a = (q, none, k + 1)) : Reading q (pre ++ a.take (k + 1)) := by
  rw [Reading, hstate] at hr
  subst hr
  rcases a with _ | ⟨x, _ | ⟨y, a⟩⟩
  · simp [parseHeader] at h
  · simp [parseHeader] at h
  obtain ⟨hx, -⟩ := eq_firstByte x
  obtain ⟨hy, hlt⟩ := eq_secondByte y
  simp only [parseHeader] at h
  split at h
  · simp at h
  · rename_i op hop
    rw [Opcode.fromU8_eq_some] at hop
    split at h
    · rename_i hle
      simp only [Prod.mk.injEq, true_and] at h
      obtain ⟨rfl, hk⟩ := h
      rw [← hk]
      refine reading_afterLength rfl rfl rfl (show LenForm.short.Holds _ from hle) ?_
      simp only [headBytes, LenForm.code, LenForm.bytes, ← hop, ← hx, ← hy]
      rfl
    · rename_i hgt
      simp only [Prod.mk.injEq, true_and] at h
      obtain ⟨rfl, hk⟩ := h
      rw [← hk]
      refine ⟨by simp only; omega, ?_⟩
      simp only [← hop, ← hx, ← hy]
      rfl

/-- The extended length bytes, as a form of the length they hold. -/
lemma reading_setPayloadLength (form : LenForm) {p q : Parser} {a : List UInt8} {n k j : ℕ}
    (hcode : form.code n = p.header.payloadLen) (hform : form.Holds n)
    (hbytes : form.bytes n = a.take k) (h : setPayloadLength p n k = (q, none, j)) :
    Reading q (firstByte p.header.fin p.header.rsv1 p.header.rsv2 p.header.rsv3
      p.header.opcode.toU8 :: secondByte p.header.mask p.header.payloadLen :: a.take j) := by
  simp only [setPayloadLength] at h
  split at h
  · simp at h
  · simp only [Prod.mk.injEq, true_and] at h
    obtain ⟨rfl, rfl⟩ := h
    apply reading_afterLength rfl rfl rfl hform
    rw [headBytes, hcode, hbytes]

lemma reading_parsePayloadLength {p q : Parser} {pre a : List UInt8} {k : ℕ}
    (hstate : p.state = .payloadLengthExt) (hr : Reading p pre)
    (h : parsePayloadLength p a = (q, none, k + 1)) : Reading q (pre ++ a.take (k + 1)) := by
  rw [Reading, hstate] at hr
  obtain ⟨hcode, rfl⟩ := hr
  have hbytes : ∀ n, n ≤ a.length → beBytes n (beFold (a.take n)) = a.take n := fun n hn => by
    have := beBytes_beFold (a.take n)
    rwa [List.length_take_of_le hn] at this
  have hlt : ∀ n, n ≤ a.length → beFold (a.take n) < 256 ^ n := fun n hn => by
    have := beFold_lt (a.take n)
    rwa [List.length_take_of_le hn] at this
  rw [parsePayloadLength] at h
  split_ifs at h with h126 hlen hlen
  · simp at h
  · refine reading_setPayloadLength .ext16 ?_ (hlt 2 (by omega)) (hbytes 2 (by omega)) h
    rw [LenForm.code]
    omega
  · simp at h
  · refine reading_setPayloadLength .ext64 ?_ (hlt 8 (by omega)) (hbytes 8 (by omega)) h
    rw [LenForm.code]
    omega

lemma reading_parseMaskingKey {p q : Parser} {pre a : List UInt8} {k : ℕ}
    (hstate : p.state = .maskingKey) (hr : Reading p pre)
    (h : parseMaskingKey p a = (q, none, k + 1)) : Reading q (pre ++ a.take (k + 1)) := by
  rw [Reading, hstate] at hr
  obtain ⟨hmask, hbuf, hrem, form, hform, rfl⟩ := hr
  rcases a with _ | ⟨x, _ | ⟨y, _ | ⟨z, _ | ⟨w, a⟩⟩⟩⟩
  · simp [parseMaskingKey] at h
  · simp [parseMaskingKey] at h
  · simp [parseMaskingKey] at h
  · simp [parseMaskingKey] at h
  · simp only [parseMaskingKey, Prod.mk.injEq, true_and] at h
    obtain ⟨rfl, hk⟩ := h
    rw [← hk]
    refine ⟨by simp [hbuf], form, hform, ?_⟩
    simp [headBytes, hmask, hbuf, keyIf, keyBytes, maskedWith, Key.toList]

lemma maskedWith_append_unmaskPiece (h : FrameHeader) (buf piece : List UInt8) :
    maskedWith (keyIf h.mask h.maskingKey) (buf ++ unmaskPiece h buf.length piece) =
      maskedWith (keyIf h.mask h.maskingKey) buf ++ piece := by
  cases hmask : h.mask
  · simp [unmaskPiece, hmask, keyIf, maskedWith]
  · simp [unmaskPiece, hmask, keyIf, maskedWith, copyAndUnmask, Mask.copyAndUnmask_eq,
      Mask.xorKey_append]

lemma reading_parsePayload {bits : ℕ} {p q : Parser} {pre a : List UInt8} {k : ℕ}
    (hstate : p.state = .payload) (hr : Reading p pre)
    (h : parsePayload bits p a = (q, none, k + 1)) : Reading q (pre ++ a.take (k + 1)) := by
  rw [Reading, hstate] at hr
  obtain ⟨hlen, form, hform, rfl⟩ := hr
  simp only [parsePayload] at h
  split_ifs at h with h0 h1
  · simp at h
  · simp at h
  simp only [Prod.mk.injEq, true_and] at h
  obtain ⟨rfl, hk⟩ := h
  have hle : k + 1 ≤ a.length := hk ▸ Nat.min_le_right _ _
  simp only [Reading, hstate, hk, maskedWith_append_unmaskPiece, List.length_append,
    length_unmaskPiece, List.length_take_of_le hle]
  rw [hk] at h1
  exact ⟨by omega, form, hform, by simp only [List.append_assoc]⟩

/-- A turn that eats keeps track of what was read. -/
lemma reading_sub {bits : ℕ} {p q : Parser} {pre a : List UInt8} {k : ℕ} (hr : Reading p pre)
    (h : sub bits p a = (q, none, k + 1)) : Reading q (pre ++ a.take (k + 1)) := by
  rw [sub] at h
  split at h
  · rename_i hstate
    exact reading_parseHeader hstate hr h
  · rename_i hstate
    exact reading_parsePayloadLength hstate hr h
  · rename_i hstate
    exact reading_parseMaskingKey hstate hr h
  · rename_i hstate
    exact reading_parsePayload hstate hr h

/-- Only the payload sub-parser completes a frame. -/
lemma state_of_complete {bits : ℕ} {p q : Parser} {a : List UInt8} {k : ℕ}
    (h : sub bits p a = (q, some .complete, k)) : p.state = .payload := by
  rw [sub] at h
  split at h
  · rcases a with _ | ⟨x, _ | ⟨y, a⟩⟩
    · simp [parseHeader] at h
    · simp [parseHeader] at h
    · simp only [parseHeader] at h
      split at h
      · simp at h
      · split at h <;> simp at h
  · simp only [parsePayloadLength, setPayloadLength] at h
    split_ifs at h <;> simp at h
  · rcases a with _ | ⟨x, _ | ⟨y, _ | ⟨z, _ | ⟨w, a⟩⟩⟩⟩ <;> simp [parseMaskingKey] at h
  · assumption

lemma header_of_complete {bits : ℕ} {p q : Parser} {a : List UInt8} {k : ℕ}
    (h : sub bits p a = (q, some .complete, k)) : q.state = .header := by
  rw [sub, state_of_complete h] at h
  simp only [parsePayload] at h
  split_ifs at h
  · simp only [Prod.mk.injEq] at h
    rw [← h.1]
  · simp only [Prod.mk.injEq] at h
    rw [← h.1]
  · simp at h

/-- A turn that completes has read the byte string of its frame. -/
lemma encodedAs_of_sub {bits : ℕ} {p q : Parser} {pre a : List UInt8} {k : ℕ} (hr : Reading p pre)
    (h : sub bits p a = (q, some .complete, k)) :
    (takeFrame q).1.EncodedAs (pre ++ a.take k) := by
  have hstate := state_of_complete h
  rw [sub, hstate] at h
  rw [Reading, hstate] at hr
  obtain ⟨hlen, form, hform, rfl⟩ := hr
  simp only [parsePayload] at h
  split_ifs at h with h0 h1
  · simp only [Prod.mk.injEq, true_and] at h
    obtain ⟨rfl, rfl⟩ := h
    have hfull : p.header.payloadLen = p.buffer.length := by omega
    refine ⟨hfull, form, ?_, ?_⟩
    · exact hfull ▸ hform
    · simp [takeFrame, encodeParts, headBytes, hfull]
  · simp only [Prod.mk.injEq, true_and] at h
    obtain ⟨rfl, hk⟩ := h
    have hle : k ≤ a.length := hk ▸ Nat.min_le_right _ _
    rw [hk] at h1
    have hmod : p.payloadRemaining % 2 ^ bits ≤ p.payloadRemaining := Nat.mod_le _ _
    have hfull : p.header.payloadLen =
        (p.buffer ++ unmaskPiece p.header p.buffer.length (a.take k)).length := by
      rw [List.length_append, length_unmaskPiece, List.length_take_of_le hle]
      omega
    refine ⟨?_, form, ?_, ?_⟩
    · simpa only [takeFrame, hk] using hfull
    · simp only [takeFrame, hk]
      exact hfull ▸ hform
    · simp only [takeFrame, hk, encodeParts, headBytes, ← hfull, maskedWith_append_unmaskPiece]
      simp
  · simp at h

/-- **What a call has read.**  An unfinished call has read part of a frame; a completed one has
read exactly one frame, the one it reports. -/
lemma reading_outcome (bits : ℕ) {p : Parser} {pre : List UInt8} (data : List UInt8)
    (hr : Reading p pre) :
    (∀ q rest, outcome (sub bits) p data = (q, none, rest) →
      ∃ pre', Reading q pre' ∧ pre' ++ rest = pre ++ data) ∧
    ∀ q r rest, outcome (sub bits) p data = (q, some r, rest) → r = .complete →
      q.state = .header ∧ ∃ bs, (takeFrame q).1.EncodedAs bs ∧ bs ++ rest = pre ++ data := by
  refine outcome_rule (splits bits)
    (P := fun s a => ∃ pre', Reading s pre' ∧ pre' ++ a = pre ++ data) ?_ ?_ ⟨pre, hr, rfl⟩
  · intro s a s' k ⟨pre', hpre, heq⟩ hsub
    refine ⟨_, reading_sub hpre hsub, ?_⟩
    rw [List.append_assoc, List.take_append_drop, heq]
  · intro s a s' r k ⟨pre', hpre, heq⟩ hsub hr
    subst hr
    refine ⟨header_of_complete hsub, _, encodedAs_of_sub hpre hsub, ?_⟩
    rw [List.append_assoc, List.take_append_drop, heq]

/-! ## Progress -/

/-- One more than nothing while a frame is under way. -/
def weight (p : Parser) : ℕ := if p.state = .header then 0 else 1

lemma weight_le (p : Parser) : p.weight ≤ 1 := by
  rw [weight]
  split <;> omega

/-- What is left to do never grows, and a completed frame takes something off it: at least the
two header bytes, or the frame that was under way. -/
lemma weight_of_outcome {bits : ℕ} {p q : Parser} {data rest : List UInt8}
    (h : outcome (sub bits) p data = (q, some .complete, rest)) :
    q.weight + rest.length < p.weight + data.length := by
  have hrule := outcome_rule (splits bits)
    (P := fun s a => s.weight + a.length ≤ p.weight + data.length)
    (Q := fun s r a => r = .complete → s.weight + a.length < p.weight + data.length)
    (fun s a s' k hle hsub => by
      have heaten : k + 1 ≤ a.length := by
        have := (splits bits).eaten_le s a
        rwa [hsub] at this
      have : s'.weight ≤ 1 := weight_le s'
      rw [List.length_drop]
      omega)
    (fun s a s' r k hle hsub hr => by
      subst hr
      have hs : s.weight = 1 := by simp [weight, state_of_complete hsub]
      have hs' : s'.weight = 0 := by simp [weight, header_of_complete hsub]
      rw [List.length_drop]
      omega)
    (Nat.le_refl _)
  exact hrule.2 _ _ _ h rfl

/-! ## Reading a given frame -/

/-- The two bytes at the front of a frame, read at a frame boundary. -/
lemma parseHeader_bytes (p : Parser) (fin rsv1 rsv2 rsv3 mask : Bool) {op : UInt8} {code : ℕ}
    (hop : op.toNat < 16) (hcode : code < 128) (tl : List UInt8) :
    parseHeader p (firstByte fin rsv1 rsv2 rsv3 op :: secondByte mask code :: tl) =
      match Opcode.fromU8 op with
      | none => ({ p with header := { p.header with fin, rsv1, rsv2, rsv3 } }, some .error, 0)
      | some opcode =>
          let h := { p.header with fin, rsv1, rsv2, rsv3, opcode, mask, payloadLen := code }
          if code ≤ 125 then (⟨afterLength mask, h, code, []⟩, none, 2)
          else (⟨.payloadLengthExt, h, 0, p.buffer⟩, none, 2) := by
  obtain ⟨h1, h2, h3, h4, h5⟩ := firstByte_bits fin rsv1 rsv2 rsv3 op hop
  obtain ⟨h6, h7⟩ := secondByte_bits mask code hcode
  simp only [parseHeader, h1, h2, h3, h4, h5, h6, h7]

/-- The extended length bytes hold the length. -/
lemma parsePayloadLength_bytes {p : Parser} {form : LenForm} {n : ℕ} (hext : form ≠ .short)
    (hcode : p.header.payloadLen = form.code n) (hform : form.Holds n) (tl : List UInt8) :
    parsePayloadLength p (form.bytes n ++ tl) = setPayloadLength p n (form.bytes n).length := by
  have htake : ∀ k, (beBytes k n ++ tl).take k = beBytes k n := fun k => by
    rw [List.take_append_of_le_length (by simp), List.take_of_length_le (by simp)]
  have hlen : ∀ k, ¬ (beBytes k n ++ tl).length < k := fun k => by simp
  cases form with
  | short => exact absurd rfl hext
  | ext16 =>
      rw [LenForm.code] at hcode
      rw [LenForm.bytes, parsePayloadLength, if_pos (by rw [hcode]), if_neg (hlen 2), htake,
        beFold_beBytes (n := 2) hform, length_beBytes]
  | ext64 =>
      rw [LenForm.code] at hcode
      rw [LenForm.bytes, parsePayloadLength, if_neg (by rw [hcode]; decide), if_neg (hlen 8), htake,
        beFold_beBytes (n := 8) hform, length_beBytes]

lemma headBytes_append (h : FrameHeader) (form : LenForm) (tl : List UInt8) :
    headBytes h form ++ tl =
      [firstByte h.fin h.rsv1 h.rsv2 h.rsv3 h.opcode.toU8,
        secondByte h.mask (form.code h.payloadLen)] ++ (form.bytes h.payloadLen ++ tl) := rfl

/-- The first two bytes of a frame with a short length. -/
lemma outcome_short (bits : ℕ) {p : Parser} (hstate : p.state = .header) {h : FrameHeader}
    (hform : LenForm.short.Holds h.payloadLen) (hkey : h.maskingKey = p.header.maskingKey)
    (tl : List UInt8) :
    outcome (sub bits) p (headBytes h .short ++ tl) =
      outcome (sub bits) ⟨afterLength h.mask, h, h.payloadLen, []⟩ tl := by
  rw [headBytes_append]
  apply outcome_of_eat (by simp)
  have hhead := parseHeader_bytes p h.fin h.rsv1 h.rsv2 h.rsv3 h.mask h.opcode.toU8_lt
    (LenForm.code_lt hform) (LenForm.short.bytes h.payloadLen ++ tl)
  rw [Opcode.fromU8_toU8] at hhead
  simp only [LenForm.code, ← hkey, if_pos (show h.payloadLen ≤ 125 from hform)] at hhead
  rw [sub, hstate]
  exact hhead

/-- The first two bytes of a frame with an extended length, and the length bytes. -/
lemma outcome_extended (bits : ℕ) {p : Parser} (hstate : p.state = .header) {h : FrameHeader}
    {form : LenForm} (hext : form ≠ .short) (hform : form.Holds h.payloadLen)
    (hkey : h.maskingKey = p.header.maskingKey) (tl : List UInt8) :
    outcome (sub bits) p (headBytes h form ++ tl) =
      outcome (sub bits) ⟨.payloadLengthExt, { h with payloadLen := form.code h.payloadLen }, 0,
        p.buffer⟩ (form.bytes h.payloadLen ++ tl) := by
  rw [headBytes_append]
  apply outcome_of_eat (by simp)
  have hhead := parseHeader_bytes p h.fin h.rsv1 h.rsv2 h.rsv3 h.mask h.opcode.toU8_lt
    (LenForm.code_lt hform) (form.bytes h.payloadLen ++ tl)
  have hcode : ¬form.code h.payloadLen ≤ 125 := by
    cases form with
    | short => exact absurd rfl hext
    | ext16 => simp [LenForm.code]
    | ext64 => simp [LenForm.code]
  rw [Opcode.fromU8_toU8] at hhead
  simp only [← hkey, if_neg hcode] at hhead
  rw [sub, hstate]
  exact hhead

lemma bytes_ne_nil {form : LenForm} (hext : form ≠ .short) (n : ℕ) : form.bytes n ≠ [] := by
  intro h
  have hlen := congrArg List.length h
  cases form with
  | short => exact hext rfl
  | ext16 => simp [LenForm.bytes] at hlen
  | ext64 => simp [LenForm.bytes] at hlen

/-- The length of a frame, read in whatever form it is written. -/
lemma outcome_headBytes (bits : ℕ) {p : Parser} (hstate : p.state = .header) {h : FrameHeader}
    {form : LenForm} (hform : form.Holds h.payloadLen) (hkey : h.maskingKey = p.header.maskingKey)
    (hlt : h.payloadLen < 2 ^ 63) (tl : List UInt8) :
    outcome (sub bits) p (headBytes h form ++ tl) =
      outcome (sub bits) ⟨afterLength h.mask, h, h.payloadLen, []⟩ tl := by
  by_cases hext : form = .short
  · subst hext
    exact outcome_short bits hstate hform hkey tl
  · rw [outcome_extended bits hstate hext hform hkey]
    apply outcome_of_eat (bytes_ne_nil hext _)
    rw [sub]
    simp only
    rw [parsePayloadLength_bytes hext rfl hform, setPayloadLength, if_neg (by omega)]

lemma outcome_keyBytes (bits : ℕ) (h : FrameHeader) (n : ℕ) (key : Key) (tl : List UInt8) :
    outcome (sub bits) ⟨.maskingKey, h, n, []⟩ (key.toList ++ tl) =
      outcome (sub bits) ⟨.payload, { h with maskingKey := key }, h.payloadLen, []⟩ tl :=
  outcome_of_eat (by simp [Key.toList]) rfl

/-- A payload that is there in full. -/
lemma outcome_payload {bits : ℕ} (h : FrameHeader) {payload rest : List UInt8}
    (hbits : payload.length < 2 ^ bits) (hne : payload ≠ [] ∨ rest ≠ []) :
    outcome (sub bits) ⟨.payload, h, payload.length, []⟩
        (maskedWith (keyIf h.mask h.maskingKey) payload ++ rest) =
      (⟨.header, h, 0, payload⟩, some .complete, rest) := by
  have hunmask : unmaskPiece h 0 (maskedWith (keyIf h.mask h.maskingKey) payload) = payload := by
    cases hmask : h.mask
    · simp [unmaskPiece, hmask, keyIf, maskedWith]
    · simp [unmaskPiece, hmask, keyIf, maskedWith, copyAndUnmask, Mask.copyAndUnmask_eq]
  rcases eq_or_ne payload [] with rfl | hpay
  · have hrest : rest ≠ [] := hne.resolve_left (by simp)
    have hnil : maskedWith (keyIf h.mask h.maskingKey) [] = [] :=
      List.eq_nil_of_length_eq_zero (by simp)
    rw [hnil, List.nil_append, outcome_of_some (k := 0) hrest rfl]
    rfl
  · have hpos : payload.length ≠ 0 := by simpa using hpay
    have hdata : maskedWith (keyIf h.mask h.maskingKey) payload ++ rest ≠ [] := by
      rw [← List.length_pos_iff, List.length_append, length_maskedWith]
      omega
    have hread : min (payload.length % 2 ^ bits)
        (maskedWith (keyIf h.mask h.maskingKey) payload ++ rest).length = payload.length := by
      rw [Nat.mod_eq_of_lt hbits, List.length_append, length_maskedWith]
      omega
    have htake : (maskedWith (keyIf h.mask h.maskingKey) payload ++ rest).take payload.length =
        maskedWith (keyIf h.mask h.maskingKey) payload := List.take_left' (length_maskedWith _ _)
    have hdrop : (maskedWith (keyIf h.mask h.maskingKey) payload ++ rest).drop payload.length =
        rest := List.drop_left' (length_maskedWith _ _)
    have hsub : sub bits ⟨.payload, h, payload.length, []⟩
        (maskedWith (keyIf h.mask h.maskingKey) payload ++ rest) =
        (⟨.header, h, 0, payload⟩, some .complete, payload.length) := by
      simp only [sub, parsePayload, hread, htake, if_neg hpos, Nat.sub_self, if_true,
        List.length_nil, List.nil_append, hunmask]
    rw [outcome_of_some hdata hsub, hdrop]

end Parser

/-- The header the parser reads off a frame.  An unmasked frame leaves the key of the frame
before it in place. -/
def headerOf (f : WireFrame) (opcode : Opcode) (old : Key) : FrameHeader where
  fin := f.fin
  rsv1 := f.rsv1
  rsv2 := f.rsv2
  rsv3 := f.rsv3
  opcode := opcode
  mask := f.key.isSome
  payloadLen := f.payload.length
  maskingKey := f.key.getD old

namespace Parser

lemma encode_append (p : Parser) {f : WireFrame} {opcode : Opcode} (hop : f.op = opcode.toU8)
    (rest : List UInt8) :
    f.encode ++ rest =
      headBytes { headerOf f opcode p.header.maskingKey with
        maskingKey := p.header.maskingKey } f.form ++
        (keyBytes f.key ++ (maskedWith f.key f.payload ++ rest)) := by
  simp [WireFrame.encode, encodeParts, headBytes, headerOf, hop]

/-- The parser at the start of the payload of a frame. -/
lemma outcome_upto_payload (bits : ℕ) {p : Parser} (hstate : p.state = .header) {f : WireFrame}
    {opcode : Opcode} (hop : Opcode.fromU8 f.op = some opcode) (hlt : f.payload.length < 2 ^ 63)
    (rest : List UInt8) :
    outcome (sub bits) p (f.encode ++ rest) =
      outcome (sub bits) ⟨.payload, headerOf f opcode p.header.maskingKey, f.payload.length, []⟩
        (maskedWith f.key f.payload ++ rest) := by
  rw [Opcode.fromU8_eq_some] at hop
  rw [encode_append p hop,
    outcome_headBytes bits hstate (by exact f.form_holds) (by rfl) (by exact hlt)]
  cases hkey : f.key with
  | none => simp [headerOf, hkey, afterLength, keyBytes]
  | some k =>
      have := outcome_keyBytes bits { headerOf f opcode p.header.maskingKey with
        maskingKey := p.header.maskingKey } f.payload.length k
        (maskedWith (some k) f.payload ++ rest)
      simpa [headerOf, hkey, afterLength, keyBytes] using this

/-- The parser after a frame. -/
def afterFrame (p : Parser) (f : WireFrame) (opcode : Opcode) : Parser :=
  ⟨.header, headerOf f opcode p.header.maskingKey, 0, f.payload⟩

/-- **A frame is read and reported**, provided it has a payload or a byte follows it. -/
lemma outcome_encode {bits : ℕ} {p : Parser} (hstate : p.state = .header) {f : WireFrame}
    {opcode : Opcode} (hop : Opcode.fromU8 f.op = some opcode) (hlt : f.payload.length < 2 ^ 63)
    (hbits : f.payload.length < 2 ^ bits) {rest : List UInt8} (hne : f.payload ≠ [] ∨ rest ≠ []) :
    outcome (sub bits) p (f.encode ++ rest) = (afterFrame p f opcode, some .complete, rest) := by
  have hkey : keyIf (headerOf f opcode p.header.maskingKey).mask
      (headerOf f opcode p.header.maskingKey).maskingKey = f.key := by
    cases hkey : f.key <;> simp [headerOf, hkey, keyIf]
  have h := outcome_payload (headerOf f opcode p.header.maskingKey) hbits hne
  rw [hkey] at h
  rw [outcome_upto_payload bits hstate hop hlt, h]
  rfl

/-- **Round trip.**  A frame that `FrameBuilder::build_into` wrote, followed by anything unless
its payload is empty and nothing follows, is read back in one call: the call consumes exactly the
frame, `take_frame` returns its header fields and its payload, and the parser is at a frame
boundary again.  A payload is a `Vec<u8>`, so its length fits in `usize`; an unmasked frame has
no key, and the header keeps that of the frame before it. -/
theorem parse_buildInto (bits : ℕ) {p : Parser} (hstate : p.state = .header) (b : FrameBuilder)
    (key : Key) (out : List UInt8) {rest : List UInt8} (hlt : b.payload.length < 2 ^ 63)
    (hbits : b.payload.length < 2 ^ bits) (hne : 0 < b.payload.length ∨ rest ≠ []) :
    ∃ q, p.parse bits (b.buildInto key out ++ rest) =
        (q, some .complete, (b.buildInto key out).length) ∧
      q.takeFrame.1 =
        { header :=
            { fin := b.fin, rsv1 := b.rsv1, rsv2 := b.rsv2, rsv3 := b.rsv3, opcode := b.opcode,
              mask := b.mask, payloadLen := b.payload.length,
              maskingKey := if b.mask then key else p.header.maskingKey }
          payload := b.payload } ∧
      q.takeFrame.2.state = .header := by
  let f : WireFrame := ⟨b.fin, b.rsv1, b.rsv2, b.rsv3, b.opcode.toU8,
    .shortest b.payload.length, keyIf b.mask key, b.payload, b.opcode.toU8_lt,
    LenForm.holds_shortest (by omega)⟩
  have hencode : b.buildInto key out = f.encode := b.buildInto_eq key out
  have hne' : f.payload ≠ [] ∨ rest ≠ [] := hne.imp_left List.length_pos_iff.mp
  have houtcome := outcome_encode hstate (f := f) (Opcode.fromU8_toU8 b.opcode) hlt hbits hne'
  rw [hencode]
  refine ⟨afterFrame p f b.opcode, pump_of_outcome (splits bits) houtcome, ?_, rfl⟩
  have hkey : (keyIf b.mask key).getD p.header.maskingKey =
      if b.mask then key else p.header.maskingKey := by
    cases b.mask <;> rfl
  simp only [afterFrame, takeFrame, headerOf, f, hkey, isSome_keyIf]

/-- A masked continuation frame of one byte, with a byte of the next frame behind it. -/
theorem parse_buildInto_continuation :
    ∃ q, Parser.new.parse 64
        (FrameBuilder.buildInto ⟨true, false, true, false, .continuation, true, Key.zero, [0x61]⟩
          ⟨1, 2, 3, 4⟩ [0xFF] ++ [0x89]) = (q, some .complete, 7) ∧
      q.takeFrame.1 =
        ⟨⟨true, false, true, false, .continuation, true, 1, ⟨1, 2, 3, 4⟩⟩, [0x61]⟩ ∧
      q.takeFrame.2.state = .header :=
  parse_buildInto 64 rfl ⟨true, false, true, false, .continuation, true, Key.zero, [0x61]⟩
    ⟨1, 2, 3, 4⟩ [0xFF] (by decide) (by decide) (.inl (by decide))

/-- A frame without payload at the end of the bytes is read but not reported. -/
lemma outcome_encode_pending (bits : ℕ) {p : Parser} (hstate : p.state = .header) {f : WireFrame}
    {opcode : Opcode} (hop : Opcode.fromU8 f.op = some opcode) (hpay : f.payload = []) :
    outcome (sub bits) p f.encode =
      (⟨.payload, headerOf f opcode p.header.maskingKey, 0, []⟩, none, []) := by
  have h := outcome_upto_payload bits hstate hop (by simp [hpay]) []
  have hnil : maskedWith f.key [] = [] := List.eq_nil_of_length_eq_zero (by simp)
  rw [List.append_nil, hpay, hnil, List.append_nil, outcome_nil] at h
  exact h

/-- A reserved opcode is refused. -/
lemma outcome_encode_reserved (bits : ℕ) {p : Parser} (hstate : p.state = .header) {f : WireFrame}
    (hop : Opcode.fromU8 f.op = none) (rest : List UInt8) :
    ∃ q tl, outcome (sub bits) p (f.encode ++ rest) = (q, some .error, tl) := by
  have hhead := parseHeader_bytes p f.fin f.rsv1 f.rsv2 f.rsv3 f.key.isSome f.op_lt
    (LenForm.code_lt f.form_holds)
    (f.form.bytes f.payload.length ++ keyBytes f.key ++ maskedWith f.key f.payload ++ rest)
  rw [hop] at hhead
  apply outcome_of_stop (by simp [f.encode_ne_nil])
  rw [sub, hstate]
  exact congrArg (fun t => t.2.1) hhead

end Parser

end Wscpp.Rs
