import Wscpp.Frame.Builder
import Wscpp.Text
import Wscpp.Deflate

/-!
# The reader of the wscpp connection

`connection::impl` of `connection.cpp`, as its reader thread runs it: `read_loop`,
`read_one_frame` and everything below them.  A `Connection` carries the members that these
functions use, among them the buffers that live from one frame to the next, and beside them what
passes between the connection and the outside: the bytes still to be read, the frames written,
and the callbacks invoked.  The threads of the application are in `Wscpp.Cpp.Threads`.

All four callbacks are set; a callback that is not set ignores what it would be given.  They do
not call back into the connection.  A read that finds fewer bytes than it asks for fails with an
error code (the sockets report an end of stream so), whose text belongs to the system and is not
modelled.  A write succeeds as long as the socket is open and `Platform.write` says so.

`payload_buffer_.resize` throws beyond `max_size()`, which nothing catches: the process ends, and
`terminated` is set.
-/

namespace Wscpp.Cpp

open Words Utf8

/-! ## Data -/

/-- `frame_header`; the opcode is the nibble as read, reserved values included. -/
structure FrameHeader where
  fin : Bool
  rsv1 : Bool
  rsv2 : Bool
  rsv3 : Bool
  op : UInt8
  mask : Bool
  payloadLen : ℕ
  maskingKey : Key
  deriving DecidableEq, Repr

/-- What a connection does not choose: the byte order of the host, the width of `size_t`, whether
`WSCPP_ENABLE_DEFLATE` is set, zlib, the masking key of the `i`-th frame and whether the `i`-th
write succeeds. -/
structure Platform where
  host : Endian
  bits : ℕ
  bits_le : bits ≤ 64
  deflate : Bool
  zlib : Zlib
  keys : ℕ → Key
  write : ℕ → Bool

/-- A 64-bit host whose keys count up and on which every write succeeds. -/
def plainPlatform : Platform where
  host := .little
  bits := 64
  bits_le := by decide
  deflate := true
  zlib := storedZlib
  keys := fun i => ⟨UInt8.ofNat i, 1, 2, 3⟩
  write := fun _ => true

/-- The text given to `on_error`: a reason of the connection's own, or that of an error code. -/
inductive ErrorText
  | reason (text : String)
  | errorCode
  deriving DecidableEq, Repr

/-- One invocation of a callback. -/
inductive Event
  | onMessage (payload : List UInt8) (op : UInt8)
  | onError (text : ErrorText)
  | onClose (code : UInt16) (reason : List UInt8)
  deriving DecidableEq, Repr

/-- `connection::impl`. -/
structure Connection where
  role : Role
  permessageDeflate : Bool
  isOpen : Bool
  isClosing : Bool
  expectingClose : Bool
  currentHeader : FrameHeader
  payloadBuffer : List UInt8
  messageBuffer : List UInt8
  fragmented : Bool
  messageOpcode : UInt8
  messageCompressed : Bool
  outboundFrame : List UInt8
  socketOpen : Bool
  input : List UInt8
  wire : List (List UInt8)
  writes : ℕ
  events : List Event
  terminated : Bool
  deriving DecidableEq, Repr

namespace Connection

/-- A connection that has just been opened. -/
def new (role : Role) (deflate : Bool) (input : List UInt8) : Connection where
  role := role
  permessageDeflate := deflate
  isOpen := true
  isClosing := false
  expectingClose := false
  currentHeader := ⟨false, false, false, false, Opcode.text.toU8, false, 0, Key.zero⟩
  payloadBuffer := []
  messageBuffer := []
  fragmented := false
  messageOpcode := Opcode.text.toU8
  messageCompressed := false
  outboundFrame := []
  socketOpen := true
  input := input
  wire := []
  writes := 0
  events := []
  terminated := false

variable (p : Platform)

/-! ## Writing and failing -/

/-- `outbound_mask`. -/
def outboundMask (c : Connection) : Bool := c.role == .client

/-- `emit_error`. -/
def emitError (c : Connection) (text : ErrorText) : Connection :=
  { c with events := c.events ++ [.onError text] }

/-- The invocation of `on_close_`. -/
def emitClose (c : Connection) (code : UInt16) (reason : List UInt8) : Connection :=
  { c with events := c.events ++ [.onClose code reason] }

/-- `socket_.write` of `outbound_frame_`, and whether it succeeded. -/
def write (c : Connection) : Connection × Bool :=
  if c.socketOpen && p.write c.writes then
    ({ c with wire := c.wire ++ [c.outboundFrame], writes := c.writes + 1 }, true)
  else ({ c with writes := c.writes + 1 }, false)

/-- `build_close_into` of `outbound_frame_`. -/
def buildClose (c : Connection) (code : UInt16) (reason : List UInt8) : Connection :=
  { c with
    outboundFrame :=
      buildCloseInto p.host c.outboundFrame code reason c.outboundMask (p.keys c.writes) }

/-- `fail_with_close`. -/
def failWithClose (c : Connection) (code : UInt16) (reason : String) : Connection :=
  let c := emitError c (.reason reason)
  let c :=
    if c.isOpen && !c.isClosing then
      (write p (buildClose p { c with isClosing := true } code (strBytes reason))).1
    else c
  emitClose { c with isOpen := false, socketOpen := false } code (strBytes reason)

/-- `fail_protocol`. -/
def failProtocol (c : Connection) (reason : String) : Connection := failWithClose p c 1002 reason

/-! ## The header -/

/-- The check of `validate_frame_header` that the current header fails first, by its reason. -/
def headerFailure (c : Connection) : Option String :=
  let h := c.currentHeader
  let dataOpcode := h.op == Opcode.text.toU8 || h.op == Opcode.binary.toU8 ||
    h.op == Opcode.continuation.toU8
  if p.deflate && h.rsv1 && (!c.permessageDeflate || !dataOpcode) then
    some "RSV1 set without permessage-deflate"
  else if p.deflate && h.rsv1 && h.op == Opcode.continuation.toU8 then
    some "RSV1 on continuation frame"
  else if (if p.deflate then h.rsv2 || h.rsv3 || (!c.permessageDeflate && h.rsv1)
      else h.rsv1 || h.rsv2 || h.rsv3) then
    some "RSV bits set without extension negotiation"
  else if !(h.op ≤ 0x02 || (0x08 ≤ h.op && h.op ≤ 0x0A)) then some "Invalid frame opcode"
  else if c.role == .server && !h.mask then some "Client frame must be masked"
  else if c.role == .client && h.mask then some "Server frame must not be masked"
  else none

/-- `validate_frame_header`. -/
def validateFrameHeader (c : Connection) : Connection × Bool :=
  match headerFailure p c with
  | some reason => (failProtocol p c reason, false)
  | none => (c, true)

/-! ## Frames -/

/-- The end of `deliver_message`, on the decompressed payload. -/
def deliverPlain (c : Connection) (payload : List UInt8) (op : UInt8) : Connection :=
  if op == Opcode.text.toU8 && !isValidUtf8 p.host payload then
    failWithClose p c 1007 "Invalid UTF-8 in text frame"
  else { c with events := c.events ++ [.onMessage payload op] }

/-- `deliver_message`; `payload` is a reference, and the second component what it refers to
afterwards. -/
def deliverMessage (c : Connection) (payload : List UInt8) (op : UInt8) (compressed : Bool) :
    Connection × List UInt8 :=
  if p.deflate && compressed then
    if !c.permessageDeflate then
      (failProtocol p c "Compressed frame without negotiated extension", payload)
    else
      match decompressMessage p.zlib payload with
      | none => (failProtocol p c "permessage-deflate decompression failed", payload)
      | some plain => (deliverPlain p c plain op, plain)
  else (deliverPlain p c payload op, payload)

/-- `reset_fragment_state`. -/
def resetFragmentState (c : Connection) : Connection :=
  { c with
    fragmented := false
    messageBuffer := []
    messageOpcode := Opcode.text.toU8
    messageCompressed := false }

/-- The status code that `handle_close_frame` takes from a payload. -/
def closeStatus : List UInt8 → UInt16
  | b0 :: b1 :: _ => if isValidCloseCode (closeCodeOf b0 b1) then closeCodeOf b0 b1 else 1002
  | _ => 1000

/-- `handle_close_frame`. -/
def handleCloseFrame (c : Connection) : Connection :=
  let c := { c with expectingClose := true }
  let code := closeStatus c.payloadBuffer
  let reason := c.payloadBuffer.drop 2
  let c := (write p (buildClose p c code [])).1
  emitClose { c with isOpen := false } code reason

/-- `handle_ping_frame`.  The flags are tested a second time under the lock, which on one thread
gives the same. -/
def handlePingFrame (c : Connection) : Connection :=
  if c.isClosing || !c.isOpen then c
  else
    let c := { c with
      outboundFrame := buildInto p.host c.outboundFrame .pong c.payloadBuffer true c.outboundMask
        (p.keys c.writes) false }
    match write p c with
    | (c, true) => c
    | (c, false) => emitError c .errorCode

/-- The `CONTINUATION` branch of `handle_frame`. -/
def handleContinuation (c : Connection) : Connection :=
  if !c.fragmented then failProtocol p c "Unexpected continuation frame"
  else
    let c := { c with messageBuffer := c.messageBuffer ++ c.payloadBuffer }
    if c.currentHeader.fin then
      resetFragmentState (deliverMessage p c c.messageBuffer c.messageOpcode c.messageCompressed).1
    else c

/-- The `TEXT` and `BINARY` branch of `handle_frame`. -/
def handleData (c : Connection) : Connection :=
  if c.fragmented then failProtocol p c "New data frame before fragmented message completed"
  else if !c.currentHeader.fin then
    { c with
      fragmented := true
      messageOpcode := c.currentHeader.op
      messageBuffer := c.payloadBuffer
      messageCompressed := c.currentHeader.rsv1 }
  else
    let (c, payload) := deliverMessage p c c.payloadBuffer c.currentHeader.op c.currentHeader.rsv1
    { c with payloadBuffer := payload }

/-- `handle_frame`. -/
def handleFrame (c : Connection) : Connection :=
  let op := c.currentHeader.op
  if op == Opcode.close.toU8 then handleCloseFrame p c
  else if op == Opcode.ping.toU8 then handlePingFrame p c
  else if op == Opcode.pong.toU8 then c
  else if op == Opcode.continuation.toU8 then handleContinuation p c
  else if op == Opcode.text.toU8 || op == Opcode.binary.toU8 then handleData p c
  else failProtocol p c "Unsupported data frame opcode"

/-! ## Reading -/

/-- `read_exact`: the bytes read and the connection after it, or nothing. -/
def readExact (c : Connection) (size : ℕ) : Option (List UInt8 × Connection) :=
  if size ≤ c.input.length then
    some (c.input.take size, { c with input := c.input.drop size })
  else none

/-- `std::vector::resize`. -/
def resize (buffer : List UInt8) (size : ℕ) : List UInt8 :=
  buffer.take size ++ List.replicate (size - buffer.length) 0

/-- `read_payload`; the second component says whether the error code is set.  An empty payload
leaves `payload_buffer_` as the frame before it left it. -/
def readPayload (c : Connection) : Connection × Bool :=
  if c.currentHeader.payloadLen = 0 then (handleFrame p c, false)
  else
    let size := c.currentHeader.payloadLen % 2 ^ p.bits
    if 2 ^ (p.bits - 1) ≤ size then ({ c with terminated := true }, false)
    else
      match readExact c size with
      | none =>
          ({ c with
             payloadBuffer := c.input ++ (resize c.payloadBuffer size).drop c.input.length
             input := [] }, true)
      | some (data, c) =>
          let data :=
            if c.currentHeader.mask then applyMask p.host c.currentHeader.maskingKey data else data
          (handleFrame p { c with payloadBuffer := data }, false)

/-- The extended length in `parse_header`; nothing when it cannot be read. -/
def readLength (c : Connection) : Option Connection :=
  if c.currentHeader.payloadLen = 126 then
    (readExact c 2).map fun (bytes, c) =>
      { c with currentHeader := { c.currentHeader with payloadLen := beFold bytes } }
  else if c.currentHeader.payloadLen = 127 then
    (readExact c 8).map fun (bytes, c) =>
      { c with currentHeader := { c.currentHeader with payloadLen := beFold bytes } }
  else some c

/-- The masking key in `parse_header`; nothing when it cannot be read. -/
def readKey (c : Connection) : Option Connection :=
  if c.currentHeader.mask then
    match readExact c 4 with
    | some ([k0, k1, k2, k3], c) =>
        some { c with currentHeader := { c.currentHeader with maskingKey := ⟨k0, k1, k2, k3⟩ } }
    | _ => none
  else some c

/-- The end of `parse_header`: the checks and the payload. -/
def parseRest (c : Connection) : Connection × Bool :=
  match validateFrameHeader p c with
  | (c, false) => (c, false)
  | (c, true) => readPayload p c

/-- `parse_header` on the two bytes of `header_buffer_`; the second component says whether the
error code is set. -/
def parseHeader (c : Connection) (first second : UInt8) : Connection × Bool :=
  let c := { c with
    currentHeader := { c.currentHeader with
      fin := first &&& 0x80 != 0
      rsv1 := first &&& 0x40 != 0
      rsv2 := first &&& 0x20 != 0
      rsv3 := first &&& 0x10 != 0
      op := first &&& 0x0F
      mask := second &&& 0x80 != 0
      payloadLen := (second &&& 0x7F).toNat } }
  match readLength c with
  | none => ({ c with input := [] }, true)
  | some c =>
      match readKey c with
      | none => ({ c with input := [] }, true)
      | some c => parseRest p c

/-- `read_one_frame`, and what it returns. -/
def readOneFrame (c : Connection) : Connection × Bool :=
  if !c.isOpen then (c, false)
  else
    match readExact c 2 with
    | some ([first, second], c) =>
        match parseHeader p c first second with
        | (c, true) => ({ emitError c .errorCode with isOpen := false }, false)
        | (c, false) => (c, c.isOpen && !c.terminated)
    | _ => ({ emitError { c with input := [] } .errorCode with isOpen := false }, false)

/-- The loop of `read_loop` for at most so many turns. -/
def readLoopFuel : ℕ → Connection → Connection
  | 0, c => c
  | n + 1, c =>
      if c.isOpen && !c.isClosing then
        match readOneFrame p c with
        | (c, true) => readLoopFuel n c
        | (c, false) => c
      else c

/-- `read_loop`. -/
def readLoop (c : Connection) : Connection := readLoopFuel p (c.input.length + 1) c

/-! ## Reading a given frame -/

/-- The header that `parse_header` makes of a frame.  An unmasked frame leaves the key of the
frame before it in place. -/
def headerOf (c : Connection) (f : WireFrame) : FrameHeader where
  fin := f.fin
  rsv1 := f.rsv1
  rsv2 := f.rsv2
  rsv3 := f.rsv3
  op := f.op
  mask := f.key.isSome
  payloadLen := f.payload.length
  maskingKey := f.key.getD c.currentHeader.maskingKey

/-- The connection once the header of a frame is read, with `rest` behind it. -/
def withHeader (c : Connection) (f : WireFrame) (rest : List UInt8) : Connection :=
  { c with currentHeader := c.headerOf f, input := rest }

lemma readExact_append (c : Connection) {a b : List UInt8} (h : c.input = a ++ b) {n : ℕ}
    (hn : a.length = n) : readExact c n = some (a, { c with input := b }) := by
  subst hn
  rw [readExact, h, if_pos (by simp), List.take_left, List.drop_left]

lemma readKey_eq {c : Connection} (key : Option Key) {rest : List UInt8}
    (hmask : c.currentHeader.mask = key.isSome) (hin : c.input = keyBytes key ++ rest) :
    readKey c = some { c with
      currentHeader := { c.currentHeader with
        maskingKey := key.getD c.currentHeader.maskingKey }
      input := rest } := by
  cases key with
  | none =>
      have hin' : c.input = rest := by simpa [keyBytes] using hin
      subst hin'
      rw [readKey, hmask]
      rfl
  | some k =>
      have hread := readExact_append c hin (n := 4) rfl
      rw [readKey, hmask, hread]
      rfl

lemma readLength_eq {c : Connection} {form : LenForm} {n : ℕ} {rest : List UInt8}
    (hform : form.Holds n) (hcode : c.currentHeader.payloadLen = form.code n)
    (hin : c.input = form.bytes n ++ rest) :
    readLength c = some { c with
      currentHeader := { c.currentHeader with payloadLen := n }
      input := rest } := by
  cases form with
  | short =>
      have hle : n ≤ 125 := hform
      have hcode' : c.currentHeader.payloadLen = n := hcode
      have hin' : c.input = rest := by simpa [LenForm.bytes] using hin
      subst hin' hcode'
      rw [readLength, if_neg (by omega), if_neg (by omega)]
  | ext16 =>
      have hread := readExact_append c hin (n := 2) (by simp [LenForm.bytes])
      have hcode' : c.currentHeader.payloadLen = 126 := hcode
      rw [readLength, if_pos hcode', hread]
      simp only [Option.map_some, LenForm.bytes, beFold_beBytes (n := 2) hform]
  | ext64 =>
      have hread := readExact_append c hin (n := 8) (by simp [LenForm.bytes])
      have hcode' : c.currentHeader.payloadLen = 127 := hcode
      rw [readLength, if_neg (by omega), if_pos hcode', hread]
      simp only [Option.map_some, LenForm.bytes, beFold_beBytes (n := 8) hform]

/-- The header of a frame is read, whatever form its length is written in. -/
lemma parseHeader_eq {c : Connection} {f : WireFrame} {rest : List UInt8}
    (hin : c.input = f.form.bytes f.payload.length ++ (keyBytes f.key ++ rest)) :
    parseHeader p c (firstByte f.fin f.rsv1 f.rsv2 f.rsv3 f.op)
        (secondByte f.key.isSome (f.form.code f.payload.length)) =
      parseRest p (c.withHeader f rest) := by
  obtain ⟨h1, h2, h3, h4, h5⟩ := firstByte_bits f.fin f.rsv1 f.rsv2 f.rsv3 f.op f.op_lt
  obtain ⟨h6, h7⟩ := secondByte_bits f.key.isSome (f.form.code f.payload.length)
    (LenForm.code_lt f.form_holds)
  simp only [parseHeader, h1, h2, h3, h4, h5, h6, h7]
  rw [readLength_eq f.form_holds (by rfl) (by exact hin)]
  simp only
  rw [readKey_eq f.key (by rfl) (by rfl)]
  rfl

/-- What `payload_buffer_` holds after a frame: its payload, unless that is empty. -/
def bufferAfter (buffer payload : List UInt8) : List UInt8 :=
  if payload.isEmpty then buffer else payload

/-- The connection once a frame is read, header and payload. -/
def withFrame (c : Connection) (f : WireFrame) (rest : List UInt8) : Connection :=
  { c.withHeader f rest with payloadBuffer := bufferAfter c.payloadBuffer f.payload }

/-- What `read_one_frame` returns. -/
def goesOn (c : Connection) : Bool := c.isOpen && !c.terminated

lemma readOneFrame_eq {c : Connection} {f : WireFrame} {rest : List UInt8}
    (hopen : c.isOpen = true) (hin : c.input = f.encode ++ rest) :
    readOneFrame p c =
      match parseRest p (c.withHeader f (maskedWith f.key f.payload ++ rest)) with
      | (c, true) => ({ emitError c .errorCode with isOpen := false }, false)
      | (c, false) => (c, c.goesOn) := by
  have hin' : c.input = [firstByte f.fin f.rsv1 f.rsv2 f.rsv3 f.op,
      secondByte f.key.isSome (f.form.code f.payload.length)] ++
      (f.form.bytes f.payload.length ++
        (keyBytes f.key ++ (maskedWith f.key f.payload ++ rest))) := by
    rw [hin]
    simp [WireFrame.encode, encodeParts]
  have hread := readExact_append c hin' (n := 2) rfl
  rw [readOneFrame, hopen, hread]
  simp only [Bool.not_true, Bool.false_eq_true, if_false]
  rw [parseHeader_eq p (by rfl)]
  rfl

/-- **A frame whose header is refused.** -/
lemma readOneFrame_of_invalid {c : Connection} {f : WireFrame} {rest : List UInt8} {reason : String}
    (hopen : c.isOpen = true) (hin : c.input = f.encode ++ rest)
    (hbad : headerFailure p (c.withHeader f (maskedWith f.key f.payload ++ rest)) = some reason) :
    readOneFrame p c =
      (failProtocol p (c.withHeader f (maskedWith f.key f.payload ++ rest)) reason, false) := by
  rw [readOneFrame_eq p hopen hin, parseRest, validateFrameHeader, hbad]
  rfl

/-- A payload that is there in full is read and unmasked. -/
lemma readPayload_eq {c : Connection} {f : WireFrame} {rest : List UInt8}
    (hfits : f.payload.length < 2 ^ (p.bits - 1)) :
    readPayload p (c.withHeader f (maskedWith f.key f.payload ++ rest)) =
      (handleFrame p (c.withFrame f rest), false) := by
  rcases eq_or_ne f.payload [] with hnil | hne
  · have hmask : maskedWith f.key [] = [] := List.eq_nil_of_length_eq_zero (by simp)
    rw [readPayload, if_pos (by simp [withHeader, headerOf, hnil])]
    simp only [withFrame, bufferAfter, hnil, hmask, List.isEmpty_nil, if_true, List.nil_append]
    rfl
  · have hpos : f.payload.length ≠ 0 := by simpa using hne
    have hlt : f.payload.length < 2 ^ p.bits :=
      Nat.lt_of_lt_of_le hfits (Nat.pow_le_pow_right (by omega) (by omega))
    have hread := readExact_append (c.withHeader f (maskedWith f.key f.payload ++ rest))
      (a := maskedWith f.key f.payload) (b := rest) rfl (length_maskedWith f.key f.payload)
    have hlen : (c.withHeader f (maskedWith f.key f.payload ++ rest)).currentHeader.payloadLen =
        f.payload.length := rfl
    have hempty : f.payload.isEmpty = false := by simpa using hne
    have hdata : (if f.key.isSome then
        applyMask p.host (f.key.getD c.currentHeader.maskingKey) (maskedWith f.key f.payload)
        else maskedWith f.key f.payload) = f.payload := by
      cases f.key with
      | none => rfl
      | some k => simp [maskedWith, applyMask, Mask.applyMask_eq]
    rw [readPayload, hlen, if_neg hpos, Nat.mod_eq_of_lt hlt, if_neg (by omega), hread]
    simp only [withFrame, bufferAfter, hempty, Bool.false_eq_true, if_false]
    congr 3

/-- **A frame whose header passes** is handled with what the payload buffer then holds. -/
lemma readOneFrame_of_valid {c : Connection} {f : WireFrame} {rest : List UInt8}
    (hopen : c.isOpen = true) (hin : c.input = f.encode ++ rest)
    (hfits : f.payload.length < 2 ^ (p.bits - 1))
    (hgood : headerFailure p (c.withHeader f (maskedWith f.key f.payload ++ rest)) = none) :
    readOneFrame p c =
      (handleFrame p (c.withFrame f rest), (handleFrame p (c.withFrame f rest)).goesOn) := by
  rw [readOneFrame_eq p hopen hin, parseRest, validateFrameHeader, hgood]
  simp only [readPayload_eq p hfits]

/-- The branches of `handle_frame` for the known opcodes. -/
def handleOpcode (c : Connection) : Opcode → Connection
  | .close => handleCloseFrame p c
  | .ping => handlePingFrame p c
  | .pong => c
  | .continuation => handleContinuation p c
  | .text => handleData p c
  | .binary => handleData p c

lemma handleFrame_of_opcode {c : Connection} {op : Opcode} (hop : c.currentHeader.op = op.toU8) :
    handleFrame p c = handleOpcode p c op := by
  cases op <;> simp only [handleFrame, hop] <;> rfl

lemma handleOpcode_data {op : Opcode} (c : Connection) (hctl : op.isControl = false)
    (hcont : op ≠ .continuation) : handleOpcode p c op = handleData p c := by
  cases op with
  | text => rfl
  | binary => rfl
  | continuation => exact absurd rfl hcont
  | close => simp [Opcode.isControl] at hctl
  | ping => simp [Opcode.isControl] at hctl
  | pong => simp [Opcode.isControl] at hctl

/-- The connection with the payload appended to the message under way. -/
def appended (c : Connection) : Connection :=
  { c with messageBuffer := c.messageBuffer ++ c.payloadBuffer }

lemma handleContinuation_of_fragmented {c : Connection} (h : c.fragmented = true) :
    handleContinuation p c =
      if c.currentHeader.fin then
        resetFragmentState (deliverMessage p c.appended (c.messageBuffer ++ c.payloadBuffer)
          c.messageOpcode c.messageCompressed).1
      else c.appended := by
  rw [handleContinuation, if_neg (by simp [h])]
  rfl

lemma deliverMessage_plain (c : Connection) (payload : List UInt8) (op : UInt8) :
    deliverMessage p c payload op false = (deliverPlain p c payload op, payload) := by
  rw [deliverMessage, if_neg (by simp)]

lemma deliverMessage_compressed {c : Connection} (hdeflate : p.deflate = true)
    (hnegotiated : c.permessageDeflate = true) (payload : List UInt8) (op : UInt8) :
    deliverMessage p c payload op true =
      match decompressMessage p.zlib payload with
      | none => (failProtocol p c "permessage-deflate decompression failed", payload)
      | some plain => (deliverPlain p c plain op, plain) := by
  rw [deliverMessage, if_pos (by simp [hdeflate]), if_neg (by simp [hnegotiated])]

/-! ## Writes that succeed -/

/-- The byte string of a frame this connection would send next. -/
def outFrame (c : Connection) (op : Opcode) (payload : List UInt8) : List UInt8 :=
  encodeParts true false false false op.toU8 (.shortest payload.length)
    (keyIf c.outboundMask (p.keys c.writes)) payload

/-- The connection after it has written a frame. -/
def sent (c : Connection) (frame : List UInt8) : Connection :=
  { c with outboundFrame := frame, wire := c.wire ++ [frame], writes := c.writes + 1 }

/-- The reader can read and write: open, not closing, the socket open. -/
structure Live (c : Connection) : Prop where
  isOpen : c.isOpen = true
  isClosing : c.isClosing = false
  socketOpen : c.socketOpen = true
  terminated : c.terminated = false

lemma Live.congr {c c' : Connection} (h : c.Live) (hopen : c'.isOpen = c.isOpen)
    (hclosing : c'.isClosing = c.isClosing) (hsocket : c'.socketOpen = c.socketOpen)
    (hterminated : c'.terminated = c.terminated) : c'.Live :=
  ⟨hopen.trans h.isOpen, hclosing.trans h.isClosing, hsocket.trans h.socketOpen,
    hterminated.trans h.terminated⟩

variable {p} (hw : ∀ i, p.write i = true)

include hw

lemma write_eq {c : Connection} (h : c.socketOpen = true) :
    write p c =
      ({ c with wire := c.wire ++ [c.outboundFrame], writes := c.writes + 1 }, true) := by
  rw [write, if_pos (by simp [h, hw])]

lemma handlePingFrame_eq {c : Connection} (h : c.Live) :
    handlePingFrame p c = c.sent (outFrame p c .pong c.payloadBuffer) := by
  rw [handlePingFrame, if_neg (by simp [h.isClosing, h.isOpen]), buildInto_eq]
  simp only
  rw [write_eq hw (by exact h.socketOpen)]
  rfl

lemma handleCloseFrame_eq {c : Connection} (h : c.Live) :
    handleCloseFrame p c = emitClose
      { c.sent (outFrame p c .close (closeCodeBytes (closeStatus c.payloadBuffer))) with
        expectingClose := true
        isOpen := false } (closeStatus c.payloadBuffer) (c.payloadBuffer.drop 2) := by
  simp only [handleCloseFrame, buildClose, buildCloseInto_eq, List.append_nil]
  rw [write_eq hw (by exact h.socketOpen)]
  rfl

/-- **A failure on a live connection**: one CLOSE frame, one `on_error`, one `on_close`. -/
lemma failWithClose_eq {c : Connection} (h : c.Live) (code : UInt16) (reason : String) :
    failWithClose p c code reason =
      { c.sent (outFrame p c .close (closeCodeBytes code ++ strBytes reason)) with
        isOpen := false
        isClosing := true
        socketOpen := false
        events := c.events ++ [.onError (.reason reason), .onClose code (strBytes reason)] } := by
  simp only [failWithClose, emitError, buildClose, buildCloseInto_eq]
  rw [if_pos (by simp [h.isOpen, h.isClosing]), write_eq hw (by exact h.socketOpen)]
  simp [sent, outFrame, outboundMask, emitClose]

end Connection

end Wscpp.Cpp
