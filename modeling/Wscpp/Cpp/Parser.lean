import Wscpp.Cpp.Connection
import Wscpp.Rs.Parser

/-!
# The wscpp frame parser

`frame::parser` of `frame/parser.cpp` is the public incremental parser of wscpp; the connection
reads frames in its own way and does not use it.  ws-rs has a port of it, and the two do the same
turn by turn (`Parser.sub_agree`), up to what an error leaves behind; what is known about the port
therefore holds of the original.

The interface is another one.  `parse` counts the bytes it consumes in a local variable and
returns only a status, so a caller cannot tell which bytes of a chunk were left over, and the next
call gets the next chunk: `Parser.feed`.  What a call leaves over is lost.  That is a piece of a
header, an extended length or a key that the chunk cut short, and everything behind a frame that
the chunk completed; a frame without payload is completed by the call after its last byte, which
loses its whole chunk.  `feed_iff_wellCut` says that these are the only losses and that each of
them shows: the frames come out as they were put in exactly if every frame has a payload and every
chunk is made of whole parts of one frame.

`size_t` has 64 bits.  The `reserve` calls have no effect here.
-/

namespace Wscpp.Cpp

open Words Incremental
open Rs (Done State)

/-! ## The parser -/

/-- `parser`, without the members that nothing reads.  Its states are those of the port. -/
structure Parser where
  state : State
  header : FrameHeader
  buffer : List UInt8
  payloadRemaining : ℕ
  deriving DecidableEq, Repr

/-- `parse_result`, with what `COMPLETE` stores in the arguments. -/
inductive ParseResult
  | incomplete
  | complete (header : FrameHeader) (payload : List UInt8)
  | error
  deriving DecidableEq, Repr

namespace Parser

/-- The constructor, and what `reset` restores. -/
def new : Parser where
  state := .header
  header := ⟨false, false, false, false, Opcode.continuation.toU8, false, 0, Key.zero⟩
  buffer := []
  payloadRemaining := 0

/-- `parse_header`. -/
def parseHeader (p : Parser) : List UInt8 → Parser × Option Done × ℕ
  | firstByte :: secondByte :: _ =>
      let header : FrameHeader :=
        { p.header with
          fin := firstByte &&& 0x80 != 0
          rsv1 := firstByte &&& 0x40 != 0
          rsv2 := firstByte &&& 0x20 != 0
          rsv3 := firstByte &&& 0x10 != 0
          op := firstByte &&& 0x0F
          mask := secondByte &&& 0x80 != 0
          payloadLen := (secondByte &&& 0x7F).toNat }
      let p := { p with header := header }
      if ¬(header.op ≤ 0x02 ∨ (0x08 ≤ header.op ∧ header.op ≤ 0x0A)) then (p, some .error, 2)
      else if header.payloadLen ≤ 125 then
        ({ p with
           state := if header.mask then .maskingKey else .payload
           payloadRemaining := header.payloadLen
           buffer := [] }, none, 2)
      else if header.payloadLen = 126 ∨ header.payloadLen = 127 then
        ({ p with state := .payloadLengthExt, payloadRemaining := 0 }, none, 2)
      else (p, none, 2)
  | _ => (p, none, 0)

/-- The end of `parse_payload_length`, once the length `n` is read from `k` bytes. -/
def setPayloadLength (p : Parser) (n k : ℕ) : Parser × Option Done × ℕ :=
  let p := { p with header := { p.header with payloadLen := n } }
  if n > 0x7FFFFFFFFFFFFFFF then (p, some .error, k)
  else
    ({ p with
       state := if p.header.mask then .maskingKey else .payload
       payloadRemaining := n
       buffer := [] }, none, k)

/-- `parse_payload_length`. -/
def parsePayloadLength (p : Parser) (data : List UInt8) : Parser × Option Done × ℕ :=
  if p.header.payloadLen = 126 then
    if data.length < 2 then (p, none, 0) else setPayloadLength p (beFold (data.take 2)) 2
  else
    if data.length < 8 then (p, none, 0) else setPayloadLength p (beFold (data.take 8)) 8

/-- `parse_masking_key`. -/
def parseMaskingKey (p : Parser) : List UInt8 → Parser × Option Done × ℕ
  | k0 :: k1 :: k2 :: k3 :: _ =>
      ({ p with
         header := { p.header with maskingKey := ⟨k0, k1, k2, k3⟩ }
         state := .payload
         payloadRemaining := p.header.payloadLen }, none, 4)
  | _ => (p, none, 0)

/-- `parse_payload`. -/
def parsePayload (host : Endian) (p : Parser) (data : List UInt8) : Parser × Option Done × ℕ :=
  if p.payloadRemaining = 0 then ({ p with state := .header }, some .complete, 0)
  else
    let toRead := min p.payloadRemaining data.length
    let offset := p.buffer.length
    let piece :=
      if p.header.mask then copyAndUnmask host p.header.maskingKey offset (data.take toRead)
      else data.take toRead
    let p := { p with
      buffer := p.buffer ++ piece
      payloadRemaining := p.payloadRemaining - toRead }
    if p.payloadRemaining = 0 then ({ p with state := .header }, some .complete, toRead)
    else (p, none, toRead)

/-- The `switch` of `parse`. -/
def sub (host : Endian) (p : Parser) (data : List UInt8) : Parser × Option Done × ℕ :=
  match p.state with
  | .header => parseHeader p data
  | .payloadLengthExt => parsePayloadLength p data
  | .maskingKey => parseMaskingKey p data
  | .payload => parsePayload host p data

/-- `parse`.  The number of bytes consumed is not returned. -/
def parse (host : Endian) (p : Parser) (data : List UInt8) : Parser × ParseResult :=
  match pump (sub host) p data with
  | (p, some .complete, _) => (new, .complete p.header p.buffer)
  | (p, some .error, _) => (p, .error)
  | (p, none, _) => (p, .incomplete)

/-- The frames of the `COMPLETE` results when chunks are passed to successive calls.  After an
error there is no further call. -/
def feed (host : Endian) : Parser → List (List UInt8) → List (FrameHeader × List UInt8)
  | _, [] => []
  | p, chunk :: chunks =>
      match parse host p chunk with
      | (p, .complete header payload) => (header, payload) :: feed host p chunks
      | (_, .error) => []
      | (p, .incomplete) => feed host p chunks

/-! ## The port -/

/-- A header of the port, as wscpp stores it. -/
def ofHeader (h : Rs.FrameHeader) : FrameHeader :=
  ⟨h.fin, h.rsv1, h.rsv2, h.rsv3, h.opcode.toU8, h.mask, h.payloadLen, h.maskingKey⟩

/-- The parser in the state of the port's. -/
def ofPort (q : Rs.Parser) : Parser := ⟨q.state, ofHeader q.header, q.buffer, q.payloadRemaining⟩

/-- What holds of the lengths in the port: they fit in 63 bits, and where an extended length is
expected the short one is still there. -/
def Sized (q : Rs.Parser) : Prop :=
  q.header.payloadLen < 2 ^ 63 ∧ q.payloadRemaining < 2 ^ 63 ∧
    (q.state = .payloadLengthExt → q.header.payloadLen < 128)

/-- The parser and its port, in the same state. -/
def Same (p : Parser) (q : Rs.Parser) : Prop := p = ofPort q ∧ Sized q

/-- An error is all that is known of a call that gives one. -/
def IsError (r : Done) : Prop := r = .error

lemma low_seven_lt (b : UInt8) : (b &&& 0x7F).toNat < 128 := by
  rw [UInt8.toNat_and, Nat.and_comm]
  exact Nat.lt_of_le_of_lt Nat.and_le_left (by decide)

lemma parseHeader_agree {q : Rs.Parser} (hq : Sized q) (data : List UInt8) :
    Agree Same IsError (parseHeader (ofPort q) data) (Rs.Parser.parseHeader q data) := by
  rcases data with _ | ⟨x, _ | ⟨y, data⟩⟩
  · exact .inr ⟨⟨rfl, hq⟩, rfl⟩
  · exact .inr ⟨⟨rfl, hq⟩, rfl⟩
  simp only [parseHeader, Rs.Parser.parseHeader]
  cases hop : Opcode.fromU8 (x &&& 0x0F) with
  | none =>
      have hbad : ¬(x &&& 0x0F ≤ 0x02 ∨ (0x08 ≤ x &&& 0x0F ∧ x &&& 0x0F ≤ 0x0A)) := by
        rw [← Opcode.fromU8_isSome_iff, hop]
        simp
      rw [if_pos hbad]
      exact .inl ⟨.error, rfl, rfl, rfl⟩
  | some op =>
      have hgood : ¬¬(x &&& 0x0F ≤ 0x02 ∨ (0x08 ≤ x &&& 0x0F ∧ x &&& 0x0F ≤ 0x0A)) := by
        rw [← Opcode.fromU8_isSome_iff, hop]
        simp
      have hlt := low_seven_lt y
      rw [if_neg hgood, Opcode.fromU8_eq_some.mp hop]
      simp only
      by_cases hshort : (y &&& 0x7F).toNat ≤ 125
      · rw [if_pos hshort, if_pos hshort]
        refine .inr ⟨⟨rfl, ?_, ?_, ?_⟩, rfl⟩
        · exact Nat.lt_of_lt_of_le hlt (by decide)
        · exact Nat.lt_of_lt_of_le hlt (by decide)
        · intro _
          exact hlt
      · rw [if_neg hshort, if_neg hshort, if_pos (by omega)]
        refine .inr ⟨⟨rfl, ?_, ?_, ?_⟩, rfl⟩
        · exact Nat.lt_of_lt_of_le hlt (by decide)
        · exact Nat.two_pow_pos 63
        · intro _
          exact hlt

lemma setPayloadLength_agree (q : Rs.Parser) (n k : ℕ) :
    Agree Same IsError (setPayloadLength (ofPort q) n k) (Rs.Parser.setPayloadLength q n k) := by
  simp only [setPayloadLength, Rs.Parser.setPayloadLength]
  by_cases hbig : n > 0x7FFFFFFFFFFFFFFF
  · rw [if_pos hbig, if_pos hbig]
    exact .inl ⟨.error, rfl, rfl, rfl⟩
  · rw [if_neg hbig, if_neg hbig]
    refine .inr ⟨⟨rfl, ?_, ?_, ?_⟩, rfl⟩
    · simp only
      omega
    · simp only
      omega
    · intro hstate
      simp only [Rs.Parser.afterLength] at hstate
      split at hstate <;> cases hstate

lemma parsePayloadLength_agree {q : Rs.Parser} (hq : Sized q)
    (hstate : q.state = .payloadLengthExt) (data : List UInt8) :
    Agree Same IsError (parsePayloadLength (ofPort q) data)
      (Rs.Parser.parsePayloadLength q data) := by
  have hmod : q.header.payloadLen % 128 = q.header.payloadLen :=
    Nat.mod_eq_of_lt (hq.2.2 hstate)
  rw [parsePayloadLength, Rs.Parser.parsePayloadLength, hmod]
  show Agree Same IsError (if q.header.payloadLen = 126 then _ else _) _
  split
  · split
    · exact .inr ⟨⟨rfl, hq⟩, rfl⟩
    · exact setPayloadLength_agree q _ 2
  · split
    · exact .inr ⟨⟨rfl, hq⟩, rfl⟩
    · exact setPayloadLength_agree q _ 8

lemma parseMaskingKey_agree {q : Rs.Parser} (hq : Sized q) (data : List UInt8) :
    Agree Same IsError (parseMaskingKey (ofPort q) data) (Rs.Parser.parseMaskingKey q data) := by
  rcases data with _ | ⟨a, _ | ⟨b, _ | ⟨c, _ | ⟨d, data⟩⟩⟩⟩
  · exact .inr ⟨⟨rfl, hq⟩, rfl⟩
  · exact .inr ⟨⟨rfl, hq⟩, rfl⟩
  · exact .inr ⟨⟨rfl, hq⟩, rfl⟩
  · exact .inr ⟨⟨rfl, hq⟩, rfl⟩
  · exact .inr ⟨⟨rfl, hq.1, hq.1, fun h => by cases h⟩, rfl⟩

lemma parsePayload_agree (host : Endian) {q : Rs.Parser} (hq : Sized q)
    (hstate : q.state = .payload) (data : List UInt8) :
    Agree Same IsError (parsePayload host (ofPort q) data) (Rs.Parser.parsePayload 64 q data) := by
  have hmod : q.payloadRemaining % 2 ^ 64 = q.payloadRemaining :=
    Nat.mod_eq_of_lt (Nat.lt_trans hq.2.1 (by decide))
  have hpiece : ∀ piece, Rs.Parser.unmaskPiece q.header q.buffer.length piece =
      if q.header.mask then copyAndUnmask host q.header.maskingKey q.buffer.length piece
      else piece := by
    intro piece
    rw [Rs.Parser.unmaskPiece]
    simp only [copyAndUnmask, Rs.copyAndUnmask, Mask.copyAndUnmask_eq]
  have hless : q.payloadRemaining - min q.payloadRemaining data.length < 2 ^ 63 :=
    Nat.lt_of_le_of_lt (Nat.sub_le _ _) hq.2.1
  rw [parsePayload, Rs.Parser.parsePayload]
  simp only [hmod, hpiece]
  by_cases hzero : q.payloadRemaining = 0
  · rw [if_pos hzero, if_pos (by exact hzero)]
    exact .inr ⟨⟨rfl, hq.1, hq.2.1, fun h => by cases h⟩, rfl⟩
  · rw [if_neg hzero, if_neg (by exact hzero)]
    by_cases hdone : q.payloadRemaining - min q.payloadRemaining data.length = 0
    · rw [if_pos hdone, if_pos (by exact hdone)]
      exact .inr ⟨⟨rfl, hq.1, hless, fun h => by cases h⟩, rfl⟩
    · rw [if_neg hdone, if_neg (by exact hdone)]
      exact .inr ⟨⟨rfl, hq.1, hless, fun h => by rw [hstate] at h; cases h⟩, rfl⟩

/-- **The parser and its port do the same**, turn by turn. -/
lemma sub_agree (host : Endian) (p : Parser) (q : Rs.Parser) (data : List UInt8)
    (h : Same p q) : Agree Same IsError (sub host p data) (Rs.Parser.sub 64 q data) := by
  obtain ⟨rfl, hq⟩ := h
  rw [sub, Rs.Parser.sub, show (ofPort q).state = q.state from rfl]
  cases hstate : q.state with
  | header => exact parseHeader_agree hq data
  | payloadLengthExt => exact parsePayloadLength_agree hq hstate data
  | maskingKey => exact parseMaskingKey_agree hq data
  | payload => exact parsePayload_agree host hq hstate data

/-! ## Feeding the port -/

/-- The port in the state that `reset` leaves. -/
def fresh : Rs.Parser := ⟨.header, ⟨false, false, false, false, .continuation, false, 0, Key.zero⟩,
  0, []⟩

lemma sized_fresh : Sized fresh := by
  refine ⟨?_, ?_, ?_⟩ <;> decide

/-- `feed` with the port in the parser's place. -/
def feedPort : Rs.Parser → List (List UInt8) → List Rs.Frame
  | _, [] => []
  | q, chunk :: chunks =>
      match pump (Rs.Parser.sub 64) q chunk with
      | (q, some .complete, _) => q.takeFrame.1 :: feedPort fresh chunks
      | (_, some .error, _) => []
      | (q, none, _) => feedPort q chunks

/-- What `COMPLETE` stores for a frame of the port. -/
def ofFrame (f : Rs.Frame) : FrameHeader × List UInt8 := (ofHeader f.header, f.payload)

lemma feed_eq (host : Endian) {q : Rs.Parser} (hq : Sized q) (chunks : List (List UInt8)) :
    feed host (ofPort q) chunks = (feedPort q chunks).map ofFrame := by
  induction chunks generalizing q with
  | nil => rfl
  | cons chunk chunks ih =>
      have hagree := pump_agree (sub_agree host) (⟨rfl, hq⟩ : Same (ofPort q) q) chunk
      rw [feed, feedPort, parse]
      generalize pump (sub host) (ofPort q) chunk = x at hagree ⊢
      generalize pump (Rs.Parser.sub 64) q chunk = y at hagree ⊢
      rcases x with ⟨p', rp, k⟩
      rcases y with ⟨q', rq, j⟩
      rcases hagree with ⟨r, hbad, hrp, hrq⟩ | ⟨⟨hp, hq'⟩, heq⟩
      · obtain rfl : rp = some r := hrp
        obtain rfl : rq = some r := hrq
        obtain rfl : r = .error := hbad
        rfl
      · obtain rfl : p' = ofPort q' := hp
        obtain ⟨rfl, rfl⟩ := Prod.mk.inj heq
        rcases rp with _ | _ | _
        · exact ih hq'
        · exact congrArg (ofFrame q'.takeFrame.1 :: ·) (ih sized_fresh)
        · rfl

lemma ofFrame_injective : Function.Injective ofFrame := by
  rintro ⟨⟨fin, rsv1, rsv2, rsv3, op, mask, len, key⟩, payload⟩
    ⟨⟨fin', rsv1', rsv2', rsv3', op', mask', len', key'⟩, payload'⟩ h
  simp only [ofFrame, ofHeader, Prod.mk.injEq, FrameHeader.mk.injEq] at h
  obtain ⟨⟨rfl, rfl, rfl, rfl, hop, rfl, rfl, rfl⟩, rfl⟩ := h
  rw [Opcode.toU8_injective hop]

end Parser

/-! ## Frames and their parts -/

/-- A frame as the builders write it, with any flags. -/
structure BuiltFrame where
  fin : Bool
  rsv1 : Bool
  rsv2 : Bool
  rsv3 : Bool
  opcode : Opcode
  key : Option Key
  payload : List UInt8
  length_lt : payload.length < 2 ^ 63

namespace BuiltFrame

/-- The frame on the wire, its length in the shortest form. -/
def wire (f : BuiltFrame) : WireFrame where
  fin := f.fin
  rsv1 := f.rsv1
  rsv2 := f.rsv2
  rsv3 := f.rsv3
  op := f.opcode.toU8
  form := .shortest f.payload.length
  key := f.key
  payload := f.payload
  op_lt := f.opcode.toU8_lt
  form_holds := LenForm.holds_shortest (Nat.lt_trans f.length_lt (Nat.pow_lt_pow_right
    Nat.one_lt_two (Nat.lt_succ_self 63)))

/-- The byte string of the frame. -/
def encode (f : BuiltFrame) : List UInt8 := f.wire.encode

/-- The byte string of a list of frames. -/
def stream (fs : List BuiltFrame) : List UInt8 := fs.flatMap encode

/-- The frame as the port returns it. -/
def read (f : BuiltFrame) : Rs.Frame := ⟨Rs.headerOf f.wire f.opcode Key.zero, f.payload⟩

/-- The header and the payload that a `COMPLETE` result has to store for the frame. -/
def parsed (f : BuiltFrame) : FrameHeader × List UInt8 :=
  (⟨f.fin, f.rsv1, f.rsv2, f.rsv3, f.opcode.toU8, f.key.isSome, f.payload.length,
    f.key.getD Key.zero⟩, f.payload)

/-- The parts of a frame that a call reads as a whole: the two-byte header, the extended length,
the key (either may be missing), and each byte of the payload. -/
def parts (f : BuiltFrame) : List (List UInt8) :=
  [firstByte f.fin f.rsv1 f.rsv2 f.rsv3 f.opcode.toU8,
      secondByte f.key.isSome ((LenForm.shortest f.payload.length).code f.payload.length)] ::
    (LenForm.shortest f.payload.length).bytes f.payload.length ::
    keyBytes f.key :: (maskedWith f.key f.payload).map ([·])

lemma flatten_singletons (bs : List UInt8) : (bs.map ([·])).flatten = bs := by
  rw [← List.flatMap_def]
  simp

lemma flatten_parts (f : BuiltFrame) : f.parts.flatten = f.encode := by
  simp only [parts, List.flatten_cons, flatten_singletons]
  simp [encode, WireFrame.encode, encodeParts, wire]

lemma parts_cut (f : BuiltFrame) (k : ℕ) :
    f.parts = (f.parts.take 3 ++ ((maskedWith f.key f.payload).take k).map ([·])) ++
      ((maskedWith f.key f.payload).drop k).map ([·]) := by
  rw [List.append_assoc, ← List.map_append, List.take_append_drop]
  rfl

lemma length_front (f : BuiltFrame) :
    (f.parts.take 3).flatten.length =
      2 + (((LenForm.shortest f.payload.length).bytes f.payload.length).length +
        (keyBytes f.key).length) := by
  simp only [parts, List.take_succ_cons, List.take_zero, List.flatten_cons, List.flatten_nil,
    List.append_nil, List.length_append, List.length_cons, List.length_nil]

end BuiltFrame

/-- How chunks may be cut: `parts` are those still to come of the frame under way and `fs` the
frames behind it.  A chunk is made of whole parts of the frame under way, or is empty; the next
frame begins with a chunk of its own and has a payload. -/
inductive WellCut : List (List UInt8) → List BuiltFrame → List (List UInt8) → Prop
  | done : WellCut [] [] []
  | empty {parts : List (List UInt8)} {fs : List BuiltFrame} {chunks : List (List UInt8)}
      (h : WellCut parts fs chunks) : WellCut parts fs ([] :: chunks)
  | chunk {group parts : List (List UInt8)} {fs : List BuiltFrame} {chunks : List (List UInt8)}
      (hne : group.flatten ≠ []) (h : WellCut parts fs chunks) :
      WellCut (group ++ parts) fs (group.flatten :: chunks)
  | next {f : BuiltFrame} {fs : List BuiltFrame} {chunks : List (List UInt8)}
      (hne : f.payload ≠ []) (h : WellCut f.parts fs chunks) : WellCut [] (f :: fs) chunks

/-! ## Parts are read as a whole -/

namespace Parser

/-- The first two bytes of a frame whose length follows. -/
lemma outcome_two_bytes {q : Rs.Parser} (hstate : q.state = .header)
    (fin rsv1 rsv2 rsv3 mask : Bool) (op : Opcode) {code : ℕ} (hcode : code < 128)
    (hext : ¬code ≤ 125) :
    ∃ q', outcome (Rs.Parser.sub 64) q
      [firstByte fin rsv1 rsv2 rsv3 op.toU8, secondByte mask code] = (q', none, []) := by
  have hhead := Rs.Parser.parseHeader_bytes q fin rsv1 rsv2 rsv3 mask op.toU8_lt hcode []
  rw [Opcode.fromU8_toU8] at hhead
  simp only [if_neg hext] at hhead
  have hsub : Rs.Parser.sub 64 q
      ([firstByte fin rsv1 rsv2 rsv3 op.toU8, secondByte mask code] ++ []) =
        Rs.Parser.parseHeader q [firstByte fin rsv1 rsv2 rsv3 op.toU8, secondByte mask code] := by
    rw [List.append_nil, Rs.Parser.sub, hstate]
  have heat := outcome_of_eat (by simp) (hsub.trans hhead)
  rw [List.append_nil, outcome_nil] at heat
  exact ⟨_, heat⟩

/-- Part of a payload is eaten. -/
lemma outcome_piece (h : Rs.FrameHeader) {n : ℕ} (hn : n < 2 ^ 63) {piece : List UInt8}
    (hpiece : piece.length < n) :
    ∃ q', outcome (Rs.Parser.sub 64) ⟨.payload, h, n, []⟩ piece = (q', none, []) := by
  rcases eq_or_ne piece [] with rfl | hne
  · exact ⟨_, outcome_nil _⟩
  have hread : min (n % 2 ^ 64) piece.length = piece.length := by
    rw [Nat.mod_eq_of_lt (Nat.lt_trans hn (by decide))]
    omega
  have hsub : Rs.Parser.sub 64 ⟨.payload, h, n, []⟩ (piece ++ []) =
      (⟨.payload, h, n - piece.length, Rs.Parser.unmaskPiece h 0 piece⟩, none, piece.length) := by
    rw [List.append_nil]
    simp only [Rs.Parser.sub, Rs.Parser.parsePayload, hread, if_neg (show n ≠ 0 from by omega),
      if_neg (show n - piece.length ≠ 0 from by omega), List.take_length, List.length_nil,
      List.nil_append]
  have heat := outcome_of_eat hne hsub
  rw [List.append_nil, outcome_nil] at heat
  exact ⟨_, heat⟩

/-- **Whole parts of a frame are eaten.**  Where the parts of a frame are cut in two, a fresh
parser has eaten all of the first half. -/
lemma outcome_parts {f : BuiltFrame} {front back : List (List UInt8)}
    (hparts : f.parts = front ++ back) (hback : back ≠ []) :
    ∃ q, outcome (Rs.Parser.sub 64) fresh front.flatten = (q, none, []) := by
  let h : Rs.FrameHeader :=
    { Rs.headerOf f.wire f.opcode Key.zero with maskingKey := Key.zero }
  have hhead : ∀ tl, outcome (Rs.Parser.sub 64) fresh
      (Rs.Parser.headBytes h (.shortest f.payload.length) ++ tl) =
        outcome (Rs.Parser.sub 64) ⟨Rs.Parser.afterLength f.key.isSome, h, f.payload.length, []⟩
          tl := fun tl =>
    Rs.Parser.outcome_headBytes 64 (by rfl) (by exact f.wire.form_holds) (by rfl)
      (by exact f.length_lt) tl
  -- With the key read, too, the payload comes next.
  have hkey : ∀ tl, ∃ h', outcome (Rs.Parser.sub 64)
      ⟨Rs.Parser.afterLength f.key.isSome, h, f.payload.length, []⟩ (keyBytes f.key ++ tl) =
        outcome (Rs.Parser.sub 64) ⟨.payload, h', f.payload.length, []⟩ tl := by
    intro tl
    cases hf : f.key with
    | none => exact ⟨h, rfl⟩
    | some k => exact ⟨_, Rs.Parser.outcome_keyBytes 64 h f.payload.length k tl⟩
  rw [BuiltFrame.parts] at hparts
  rcases front with _ | ⟨d0, _ | ⟨d1, _ | ⟨d2, front⟩⟩⟩
  · exact ⟨_, outcome_nil _⟩
  · obtain ⟨rfl, -⟩ := List.cons.inj hparts
    rw [List.flatten_cons, List.flatten_nil, List.append_nil]
    by_cases hshort : f.payload.length ≤ 125
    · have hform : LenForm.shortest f.payload.length = .short := by
        rw [LenForm.shortest, if_pos hshort]
      have hout := hhead []
      rw [hform, List.append_nil, outcome_nil] at hout
      rw [hform]
      exact ⟨_, hout⟩
    · apply outcome_two_bytes rfl _ _ _ _ _ _ (LenForm.code_shortest_lt _)
      rw [LenForm.shortest, if_neg hshort]
      split <;> simp [LenForm.code]
  · simp only [List.cons_append, List.cons.injEq] at hparts
    obtain ⟨rfl, rfl, -⟩ := hparts
    have hout := hhead []
    rw [List.append_nil, outcome_nil] at hout
    simp only [List.flatten_cons, List.flatten_nil, List.append_nil]
    exact ⟨_, hout⟩
  · simp only [List.cons_append, List.cons.injEq] at hparts
    obtain ⟨rfl, rfl, rfl, hrest⟩ := hparts
    obtain ⟨h', hout⟩ := hkey front.flatten
    have hlen : front.flatten.length < f.payload.length := by
      obtain ⟨l₁, l₂, hl, rfl, rfl⟩ := List.map_eq_append_iff.mp hrest
      have hlength := congrArg List.length hl
      rw [length_maskedWith, List.length_append] at hlength
      have hpos : 0 < l₂.length := List.length_pos_iff.mpr (by simpa using hback)
      rw [BuiltFrame.flatten_singletons]
      omega
    obtain ⟨q, hpiece⟩ := outcome_piece h' f.length_lt hlen
    refine ⟨q, ?_⟩
    rw [← hpiece, ← hout, ← hhead]
    simp only [List.flatten_cons]
    rfl

lemma outcome_whole {f : BuiltFrame} {tl : List UInt8} (hne : f.payload ≠ [] ∨ tl ≠ []) :
    outcome (Rs.Parser.sub 64) fresh (f.encode ++ tl) =
      (fresh.afterFrame f.wire f.opcode, some .complete, tl) :=
  Rs.Parser.outcome_encode rfl (Opcode.fromU8_toU8 f.opcode) f.length_lt
    (Nat.lt_trans f.length_lt (by decide)) hne

lemma feedPort_cons (q : Rs.Parser) (chunk : List UInt8) (chunks : List (List UInt8)) :
    feedPort q (chunk :: chunks) =
      match outcome (Rs.Parser.sub 64) q chunk with
      | (q, some .complete, _) => q.takeFrame.1 :: feedPort fresh chunks
      | (_, some .error, _) => []
      | (q, none, _) => feedPort q chunks := by
  rw [feedPort, outcome]
  rcases pump (Rs.Parser.sub 64) q chunk with ⟨q', _ | _ | _, k⟩ <;> rfl

/-- The parser has eaten these bytes since it was fresh, and nothing else. -/
def HasEaten (q : Rs.Parser) (bytes : List UInt8) : Prop :=
  ∀ tl, outcome (Rs.Parser.sub 64) fresh (bytes ++ tl) = outcome (Rs.Parser.sub 64) q tl

lemma hasEaten_nil : HasEaten fresh [] := fun _ => rfl

/-- A call that asks for more and leaves nothing over. -/
lemma HasEaten.append {q q' : Rs.Parser} {bytes chunk : List UInt8} (h : HasEaten q bytes)
    (hcall : outcome (Rs.Parser.sub 64) q chunk = (q', none, [])) :
    HasEaten q' (bytes ++ chunk) := by
  intro tl
  have hpump : pump (Rs.Parser.sub 64) q chunk = (q', none, chunk.length) := by
    have heaten := pump_of_outcome (Rs.Parser.splits 64) (a := chunk) (b := [])
      (by rwa [List.append_nil])
    rwa [List.append_nil] at heaten
  have hnext := outcome_append_none (Rs.Parser.splits 64) tl hpump
  rw [List.drop_length, List.nil_append] at hnext
  rw [List.append_assoc, h, hnext]

/-- **Chunks of whole parts give the frames**, from the boundary between two frames and from
inside a frame. -/
lemma feedPort_of_wellCut {parts : List (List UInt8)} {fs : List BuiltFrame}
    {chunks : List (List UInt8)} (h : WellCut parts fs chunks) :
    (parts = [] → feedPort fresh chunks = fs.map BuiltFrame.read) ∧
    ∀ (f : BuiltFrame) (front : List (List UInt8)) (q : Rs.Parser), f.payload ≠ [] →
      f.parts = front ++ parts → parts ≠ [] → HasEaten q front.flatten →
        feedPort q chunks = f.read :: fs.map BuiltFrame.read := by
  induction h with
  | done => exact ⟨fun _ => rfl, fun _ _ _ _ _ hne => absurd rfl hne⟩
  | empty h ih =>
      constructor
      · intro hnil
        rw [feedPort_cons, outcome_nil]
        exact ih.1 hnil
      · intro f front q hpay hparts hne heaten
        rw [feedPort_cons, outcome_nil]
        exact ih.2 f front q hpay hparts hne heaten
  | @chunk group parts fs chunks hgroup h ih =>
      constructor
      · intro hnil
        rw [(List.append_eq_nil_iff.mp hnil).1] at hgroup
        exact absurd rfl hgroup
      · intro f front q hpay hparts _ heaten
        rw [feedPort_cons]
        by_cases hnil : parts = []
        · -- the last part of the frame is in this chunk
          subst hnil
          have hwhole : outcome (Rs.Parser.sub 64) q group.flatten =
              (fresh.afterFrame f.wire f.opcode, some .complete, []) := by
            rw [← heaten, ← outcome_whole (.inl hpay), ← f.flatten_parts, hparts]
            simp
          rw [hwhole]
          exact congrArg (f.read :: ·) (ih.1 rfl)
        · rw [← List.append_assoc] at hparts
          obtain ⟨q', hq'⟩ := outcome_parts hparts hnil
          rw [List.flatten_append, heaten] at hq'
          rw [hq']
          apply ih.2 f (front ++ group) q' hpay hparts hnil
          rw [List.flatten_append]
          exact heaten.append hq'
  | @next f fs chunks hpay h ih =>
      constructor
      · intro _
        exact ih.2 f [] fresh hpay rfl (by simp [BuiltFrame.parts]) hasEaten_nil
      · intro _ _ _ _ _ hne
        exact absurd rfl hne

/-! ## Every loss shows

Each completed frame has eaten at least as many bytes as its shortest encoding has.  When the
frames come out as they were put in, their encodings make up the whole stream, so nothing can have
been lost on the way. -/

/-- The length of the shortest byte string of a frame. -/
def shortLength (fr : Rs.Frame) : ℕ :=
  2 + ((LenForm.shortest fr.payload.length).bytes fr.payload.length).length +
    (keyBytes (keyIf fr.header.mask fr.header.maskingKey)).length + fr.payload.length

lemma bytes_shortest_le {form : LenForm} {n : ℕ} (h : form.Holds n) :
    ((LenForm.shortest n).bytes n).length ≤ (form.bytes n).length := by
  rw [LenForm.shortest]
  cases form with
  | short => rw [if_pos (show n ≤ 125 from h)]
  | ext16 =>
      have hle : n ≤ 65535 := Nat.le_of_lt_succ h
      split_ifs <;> simp [LenForm.bytes]
  | ext64 => split_ifs <;> simp [LenForm.bytes]

lemma shortLength_le {fr : Rs.Frame} {bs : List UInt8} (h : fr.EncodedAs bs) :
    shortLength fr ≤ bs.length := by
  obtain ⟨-, form, hform, rfl⟩ := h
  have hle := bytes_shortest_le hform
  simp only [shortLength, encodeParts, List.length_cons, List.length_append, length_maskedWith]
  omega

lemma shortLength_read (f : BuiltFrame) : shortLength f.read = f.encode.length := by
  have hkey : keyIf f.key.isSome (f.key.getD Key.zero) = f.key := by
    cases f.key <;> rfl
  simp only [shortLength, BuiltFrame.read, Rs.headerOf, BuiltFrame.wire, hkey, BuiltFrame.encode,
    WireFrame.encode, encodeParts, List.length_cons, List.length_append, length_maskedWith]
  omega

/-- How many bytes the calls leave over. -/
def lost : Rs.Parser → List (List UInt8) → ℕ
  | _, [] => 0
  | q, chunk :: chunks =>
      match outcome (Rs.Parser.sub 64) q chunk with
      | (_, some .complete, rest) => rest.length + lost fresh chunks
      | (_, some .error, _) => 0
      | (q, none, rest) => rest.length + lost q chunks

lemma reading_fresh : fresh.Reading [] := rfl

/-- **Counting.**  The completed frames and the losses together are no longer than the input. -/
lemma feedPort_length {q : Rs.Parser} {pre : List UInt8} (hr : q.Reading pre)
    (chunks : List (List UInt8)) :
    ((feedPort q chunks).map shortLength).sum + lost q chunks ≤
      pre.length + chunks.flatten.length := by
  induction chunks generalizing q pre with
  | nil => simp [feedPort, lost]
  | cons chunk chunks ih =>
      obtain ⟨hnone, hsome⟩ := Rs.Parser.reading_outcome 64 chunk hr
      rw [feedPort_cons, lost, List.flatten_cons, List.length_append]
      rcases hout : outcome (Rs.Parser.sub 64) q chunk with ⟨q', _ | _ | _, rest⟩
      · obtain ⟨pre', hr', heq⟩ := hnone q' rest hout
        have hlen := congrArg List.length heq
        have hih := ih hr'
        simp only [List.length_append] at hlen ⊢
        omega
      · obtain ⟨-, bs, henc, heq⟩ := hsome q' _ rest hout rfl
        have hlen := congrArg List.length heq
        have hle := shortLength_le henc
        have hih := ih reading_fresh
        simp only [List.length_append, List.length_nil] at hlen hih
        simp only [List.map_cons, List.sum_cons]
        omega
      · simp

/-- The second byte of a header tells whether there is a key and how long the length field is. -/
lemma second_byte_lengths {mask mask' : Bool} {form form' : LenForm} {n n' : ℕ}
    (hform : form.Holds n) (hform' : form'.Holds n')
    (h : secondByte mask (form.code n) = secondByte mask' (form'.code n')) :
    mask = mask' ∧ (form.bytes n).length = (form'.bytes n').length := by
  obtain ⟨hmask, hcode⟩ := secondByte_bits mask _ (LenForm.code_lt hform)
  obtain ⟨hmask', hcode'⟩ := secondByte_bits mask' _ (LenForm.code_lt hform')
  rw [h] at hmask hcode
  refine ⟨hmask.symm.trans hmask', ?_⟩
  have hsame : form.code n = form'.code n' := hcode.symm.trans hcode'
  cases form <;> cases form' <;> simp [LenForm.code, LenForm.bytes] at hsame ⊢
  · exact absurd (show n ≤ 125 from hform) (by omega)
  · exact absurd (show n ≤ 125 from hform) (by omega)
  · exact absurd (show n' ≤ 125 from hform') (by omega)
  · exact absurd (show n' ≤ 125 from hform') (by omega)

/-- **What has been read of a frame is made of whole parts.** -/
lemma parts_of_reading {f : BuiltFrame} {q : Rs.Parser} {pre tl : List UInt8}
    (hr : q.Reading pre) (h : pre ++ tl = f.encode) :
    ∃ front back, f.parts = front ++ back ∧ pre = front.flatten := by
  -- Two fronts of the same bytes are equal if they are equally long.
  have hsuffices : ∀ front back, f.parts = front ++ back → pre.length = front.flatten.length →
      ∃ front back, f.parts = front ++ back ∧ pre = front.flatten := by
    intro front back hparts hlen
    rw [← f.flatten_parts, hparts, List.flatten_append] at h
    exact ⟨front, back, hparts, (List.append_inj h hlen).1⟩
  have hform : (LenForm.shortest f.payload.length).Holds f.payload.length := f.wire.form_holds
  have hencode : f.encode = firstByte f.fin f.rsv1 f.rsv2 f.rsv3 f.opcode.toU8 ::
      secondByte f.key.isSome ((LenForm.shortest f.payload.length).code f.payload.length) ::
        ((LenForm.shortest f.payload.length).bytes f.payload.length ++ keyBytes f.key ++
          maskedWith f.key f.payload) := rfl
  rw [Rs.Parser.Reading] at hr
  split at hr
  · exact ⟨[], f.parts, rfl, hr⟩
  · obtain ⟨-, rfl⟩ := hr
    exact hsuffices [_] _ rfl rfl
  · obtain ⟨-, -, -, form, hholds, rfl⟩ := hr
    rw [hencode, Rs.Parser.headBytes, List.cons_append, List.cons_append, List.cons.injEq,
      List.cons.injEq] at h
    obtain ⟨-, hlen⟩ := second_byte_lengths hholds hform h.2.1
    apply hsuffices [_, _] _ rfl
    simp only [Rs.Parser.headBytes, List.length_cons, hlen, List.flatten_cons, List.flatten_nil,
      List.append_nil, List.length_append, List.length_nil]
    omega
  · obtain ⟨-, form, hholds, rfl⟩ := hr
    have hlength := congrArg List.length h
    rw [hencode, Rs.Parser.headBytes, List.append_assoc, List.append_assoc, List.cons_append,
      List.cons_append, List.cons.injEq, List.cons.injEq] at h
    obtain ⟨hmask, hlen⟩ := second_byte_lengths hholds hform h.2.1
    have hkey : (keyBytes (keyIf q.header.mask q.header.maskingKey)).length =
        (keyBytes f.key).length := by
      rw [hmask]
      cases f.key <;> rfl
    rw [hencode] at hlength
    simp only [Rs.Parser.headBytes, List.length_append, List.length_cons, length_maskedWith, hkey,
      hlen] at hlength
    have hle : q.buffer.length ≤ f.payload.length := by omega
    apply hsuffices _ _ (f.parts_cut q.buffer.length)
    simp only [Rs.Parser.headBytes, List.length_append, List.length_cons, length_maskedWith,
      hkey, hlen, List.flatten_append, BuiltFrame.flatten_singletons, List.length_take,
      BuiltFrame.length_front]
    omega

/-- Chunks that lose nothing inside a frame are cut at its parts, and the frame has a payload. -/
def CutInside (chunks : List (List UInt8)) : Prop :=
  ∀ (f : BuiltFrame) (front back : List (List UInt8)) (q : Rs.Parser) (fs : List BuiltFrame),
    f.parts = front ++ back → q.Reading front.flatten → HasEaten q front.flatten →
    chunks.flatten = back.flatten ++ BuiltFrame.stream fs → lost q chunks = 0 →
    feedPort q chunks = f.read :: fs.map BuiltFrame.read → f.payload ≠ [] ∧ WellCut back fs chunks

lemma wellCut_of_empties {chunks : List (List UInt8)} (h : chunks.flatten = []) :
    WellCut [] [] chunks := by
  induction chunks with
  | nil => exact .done
  | cons chunk chunks ih =>
      rw [List.flatten_cons, List.append_eq_nil_iff] at h
      rw [h.1]
      exact .empty (ih h.2)

/-- The same between two frames. -/
lemma CutInside.boundary {chunks : List (List UInt8)} (h : CutInside chunks)
    {fs : List BuiltFrame} (hflat : chunks.flatten = BuiltFrame.stream fs)
    (hlost : lost fresh chunks = 0) (hfeed : feedPort fresh chunks = fs.map BuiltFrame.read) :
    WellCut [] fs chunks := by
  cases fs with
  | nil => exact wellCut_of_empties hflat
  | cons f fs =>
      obtain ⟨hpay, hcut⟩ := h f [] f.parts fresh fs rfl reading_fresh hasEaten_nil
        (by rw [hflat, f.flatten_parts]; rfl) hlost hfeed
      exact .next hpay hcut

/-- A longer front of the same bytes goes on where a shorter one ends. -/
lemma parts_split {front back front' back' : List (List UInt8)} {chunk : List UInt8}
    (h : front ++ back = front' ++ back') (hchunk : chunk ≠ [])
    (hbytes : front.flatten ++ chunk = front'.flatten) :
    ∃ group, front' = front ++ group ∧ back = group ++ back' ∧ group.flatten = chunk := by
  rcases List.append_eq_append_iff.mp h with ⟨group, rfl, hback⟩ | ⟨group, rfl, hback⟩
  · refine ⟨group, rfl, hback, ?_⟩
    rw [List.flatten_append] at hbytes
    exact (List.append_cancel_left hbytes).symm
  · -- the other way round the chunk would be empty
    have hlen := congrArg List.length hbytes
    have hpos := List.length_pos_iff.mpr hchunk
    simp only [List.flatten_append, List.length_append] at hlen
    omega

/-- A call that leaves nothing over stays inside its frame. -/
lemma chunk_within {f : BuiltFrame} {front back : List (List UInt8)} {q q' : Rs.Parser}
    {r : Option Done} {chunk later next : List UInt8} (hparts : f.parts = front ++ back)
    (heaten : HasEaten q front.flatten)
    (hout : outcome (Rs.Parser.sub 64) q chunk = (q', r, []))
    (hflat : chunk ++ later = back.flatten ++ next) :
    ∃ z, front.flatten ++ chunk ++ z = f.encode ∧ back.flatten = chunk ++ z ∧
      later = z ++ next := by
  have hencode : front.flatten ++ back.flatten = f.encode := by
    rw [← f.flatten_parts, hparts, List.flatten_append]
  rcases List.append_eq_append_iff.mp hflat with ⟨z, hback, hlater⟩ | ⟨z, rfl, hnext⟩
  · exact ⟨z, by rw [List.append_assoc, ← hback, hencode], hback, hlater⟩
  · rcases eq_or_ne z [] with rfl | hz
    · exact ⟨[], by simpa using hencode, by simp, hnext.symm⟩
    · -- the frame is complete before the end of the chunk
      rw [← heaten, ← List.append_assoc, hencode, outcome_whole (.inr hz)] at hout
      cases hz (congrArg (fun t => t.2.2) hout)

lemma cutInside (chunks : List (List UInt8)) : CutInside chunks := by
  induction chunks with
  | nil =>
      intro f front back q fs _ _ _ _ _ hfeed
      cases hfeed
  | cons chunk chunks ih =>
      intro f front back q fs hparts hr heaten hflat hlost hfeed
      rw [feedPort_cons] at hfeed
      rw [lost] at hlost
      rcases eq_or_ne chunk [] with rfl | hchunk
      · rw [outcome_nil] at hfeed hlost
        obtain ⟨hpay, hcut⟩ := ih f front back q fs hparts hr heaten hflat
          (by simpa using hlost) hfeed
        exact ⟨hpay, .empty hcut⟩
      rw [List.flatten_cons] at hflat
      -- the chunk ends inside the frame, ends it, or breaks a rule; the last cannot be
      rcases hout : outcome (Rs.Parser.sub 64) q chunk with ⟨q', _ | _ | _, rest⟩
      · rw [hout] at hfeed hlost
        simp only [Nat.add_eq_zero_iff, List.length_eq_zero_iff] at hlost
        obtain ⟨rfl, hlost⟩ := hlost
        obtain ⟨z, hz, hback, hlater⟩ := chunk_within hparts heaten hout hflat
        obtain ⟨pre, hr', hpre⟩ := (Rs.Parser.reading_outcome 64 chunk hr).1 q' [] hout
        rw [List.append_nil] at hpre
        subst hpre
        obtain ⟨front', back', hparts', hfront'⟩ := parts_of_reading hr' hz
        -- what the chunk has brought is whole parts of the frame
        obtain ⟨group, rfl, rfl, rfl⟩ := parts_split (hparts.symm.trans hparts') hchunk hfront'
        rw [List.flatten_append, List.append_cancel_left_eq] at hback
        rw [hfront'] at hr'
        obtain ⟨hpay, hcut⟩ := ih f _ back' q' fs hparts' hr' (hfront' ▸ heaten.append hout)
          (by rw [hlater, hback]) hlost hfeed
        exact ⟨hpay, .chunk hchunk hcut⟩
      · rw [hout] at hfeed hlost
        simp only [Nat.add_eq_zero_iff, List.length_eq_zero_iff] at hlost
        obtain ⟨rfl, hlost⟩ := hlost
        obtain ⟨z, hz, hback, hlater⟩ := chunk_within hparts heaten hout hflat
        have hwhole : outcome (Rs.Parser.sub 64) fresh f.encode = (q', some .complete, z) := by
          rw [← hz, List.append_assoc, heaten]
          exact outcome_append_of_some (Rs.Parser.splits 64) hout z
        -- a frame without payload is not reported at its end
        have hpay : f.payload ≠ [] := by
          intro hnil
          rw [BuiltFrame.encode, Rs.Parser.outcome_encode_pending 64 (p := fresh) rfl
            (Opcode.fromU8_toU8 f.opcode) hnil] at hwhole
          cases hwhole
        have hcomplete : outcome (Rs.Parser.sub 64) fresh (f.encode ++ []) =
            (fresh.afterFrame f.wire f.opcode, some .complete, []) := outcome_whole (.inl hpay)
        rw [List.append_nil, hwhole] at hcomplete
        obtain rfl : z = [] := congrArg (fun t => t.2.2) hcomplete
        rw [List.append_nil] at hback
        -- the next chunk begins with a frame
        have hcut := ih.boundary hlater hlost (List.cons.inj hfeed).2
        have hlast : WellCut (back ++ []) fs (back.flatten :: chunks) :=
          .chunk (by rwa [hback]) hcut
        rw [List.append_nil, hback] at hlast
        exact ⟨hpay, hlast⟩
      · rw [hout] at hfeed
        cases hfeed

/-- **The parser gives the frames exactly if the chunks are well cut.** -/
lemma feedPort_iff_wellCut {fs : List BuiltFrame} {chunks : List (List UInt8)}
    (hflat : chunks.flatten = BuiltFrame.stream fs) :
    feedPort fresh chunks = fs.map BuiltFrame.read ↔ WellCut [] fs chunks := by
  refine ⟨fun hfeed => ?_, fun hcut => (feedPort_of_wellCut hcut).1 rfl⟩
  have hcount := feedPort_length reading_fresh chunks
  have htotal : (fs.map fun f => f.encode.length).sum = chunks.flatten.length := by
    rw [hflat, BuiltFrame.stream, List.length_flatMap]
  rw [hfeed, List.map_map, List.length_nil, Nat.zero_add,
    show shortLength ∘ BuiltFrame.read = fun f => f.encode.length from
      funext shortLength_read, htotal] at hcount
  exact (cutInside chunks).boundary hflat (by omega) hfeed

end Parser

/-- **When `frame::parser` is incremental.**  However the encodings of a list of frames are cut
into chunks, the `COMPLETE` results of successive calls are exactly these frames if and only if
every frame has a payload and every chunk is made of whole parts of one frame: no chunk boundary
inside a two-byte header, an extended length or a masking key, and no chunk with bytes of two
frames. -/
theorem feed_iff_wellCut (host : Endian) {fs : List BuiltFrame} {chunks : List (List UInt8)}
    (hflat : chunks.flatten = BuiltFrame.stream fs) :
    Parser.feed host .new chunks = fs.map BuiltFrame.parsed ↔ WellCut [] fs chunks := by
  have hmap : fs.map BuiltFrame.parsed = (fs.map BuiltFrame.read).map Parser.ofFrame := by
    rw [List.map_map]
    rfl
  rw [← Parser.feedPort_iff_wellCut hflat, hmap,
    show Parser.new = Parser.ofPort Parser.fresh from rfl,
    Parser.feed_eq host Parser.sized_fresh]
  exact (List.map_injective_iff.mpr Parser.ofFrame_injective).eq_iff

lemma length_hi_lt : ([0x48, 0x69] : List UInt8).length < 2 ^ 63 := by decide

lemma length_nil_lt : ([] : List UInt8).length < 2 ^ 63 := by decide

/-- `81 02 48 69`: an unmasked text frame. -/
def hi : BuiltFrame := ⟨true, false, false, false, .text, none, [0x48, 0x69], length_hi_lt⟩

/-- `89 00`: an empty ping. -/
def emptyPing : BuiltFrame := ⟨true, false, false, false, .ping, none, [], length_nil_lt⟩

/-- A text frame cut behind its two header bytes and inside its payload comes out. -/
theorem feed_hi_in_three :
    Parser.feed .big .new [[0x81, 0x02], [0x48], [0x69]] = [hi.parsed] := by
  have hlast : WellCut ([[0x69]] ++ []) [] [[0x69]] := .chunk (by decide) .done
  have hmore : WellCut ([[0x48]] ++ ([[0x69]] ++ [])) [] [[0x48], [0x69]] :=
    .chunk (by decide) hlast
  have hhead : WellCut ([[0x81, 0x02], [], []] ++ ([[0x48]] ++ ([[0x69]] ++ []))) []
      [[0x81, 0x02], [0x48], [0x69]] := .chunk (by decide) hmore
  have hcut : WellCut [] [hi] [[0x81, 0x02], [0x48], [0x69]] := .next (by decide) hhead
  have hflat : ([[0x81, 0x02], [0x48], [0x69]] : List (List UInt8)).flatten =
      BuiltFrame.stream [hi] := by decide
  exact (feed_iff_wellCut .big hflat).mpr hcut

/-- The same frame cut inside its header is lost, of two frames in one chunk the second is, and so
is a frame behind an empty one. -/
theorem feed_loses_frames :
    (¬∀ (host : Endian) (fs : List BuiltFrame) (chunks : List (List UInt8)),
      chunks.flatten = BuiltFrame.stream fs →
        Parser.feed host .new chunks = fs.map BuiltFrame.parsed) ∧
    Parser.feed .little .new [[0x81], [0x02, 0x48, 0x69]] = [] ∧
    Parser.feed .little .new [[0x81, 0x02, 0x48, 0x69, 0x81, 0x02, 0x48, 0x69]] = [hi.parsed] ∧
    Parser.feed .little .new [[0x89, 0x00], [0x81, 0x02, 0x48, 0x69]] = [emptyPing.parsed] := by
  refine ⟨?_, by decide, by decide, by decide⟩
  intro hall
  have hfeed := hall .little [hi] [[0x81], [0x02, 0x48, 0x69]] (by decide)
  revert hfeed
  decide

end Wscpp.Cpp
