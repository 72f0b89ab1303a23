import Wscpp.Rs.Parser
import Wscpp.Text
import Wscpp.Deflate

/-!
# The ws-rs connection

`connection.rs` and `blocking/connection.rs` hold the same session twice, once with `.await`
and once without; their bodies agree statement for statement, so one model serves both.  A
`Connection` carries the fields of the struct, and beside them what it has of its transport:
the reads still to come and the frames written so far.  Each method is a function from the
connection to the connection afterwards and a result, since a failed call keeps what it did.

The transport is a script of reads.  A read gives at most `readChunk` bytes and at least one,
or an I/O error; when the script is used up, every further read gives zero bytes, the end of
the stream.  A write succeeds, fails before the frame is out, or fails in `flush` with the
frame already out.  Which of them happens, the masking keys, the width of `usize` and zlib are
the environment `Env`; everything is proved for every environment.

Memory is not modelled: the `reserve` calls of the parser have no effect here.  The crate
feature `deflate` is on.

The loop of `read_message` has no bound in the source.  Here it has one, the amount of work
that the connection still has before it (`Connection.todo`), and `readMessage_eq` shows that
the bound is never what ends it.
-/

namespace Wscpp.Rs

open Words Incremental Utf8

/-! ## Data -/

/-- The variants of `Error` a session returns. -/
inductive Error
  | protocol (reason : String)
  | io
  deriving DecidableEq, Repr

/-- `Message`. -/
structure Message where
  opcode : Opcode
  payload : List UInt8
  deriving DecidableEq, Repr

/-- `FragmentState`. -/
structure FragmentState where
  active : Bool
  buffer : List UInt8
  opcode : Opcode
  compressed : Bool
  deriving DecidableEq, Repr

/-- `FragmentState::reset`, also the initial state. -/
def FragmentState.reset : FragmentState where
  active := false
  buffer := []
  opcode := .text
  compressed := false

/-- `ReadState`, without the scratch space of `read`. -/
structure ReadState where
  buf : List UInt8
  pos : ℕ
  deriving DecidableEq, Repr

/-- The bytes the parser has not consumed. -/
def ReadState.unparsed (rs : ReadState) : List UInt8 := rs.buf.drop rs.pos

/-- `READ_CHUNK`. -/
def readChunk : ℕ := 64 * 1024

/-- The bytes of one successful read. -/
structure Chunk where
  bytes : List UInt8
  ne_nil : bytes ≠ []
  length_le : bytes.length ≤ readChunk
  deriving DecidableEq, Repr

/-- What one call to `read` gives. -/
inductive ReadEvent
  | data (chunk : Chunk)
  | error
  deriving DecidableEq, Repr

/-- The bytes of a script of reads. -/
def inputBytes : List ReadEvent → List UInt8
  | [] => []
  | .data chunk :: input => chunk.bytes ++ inputBytes input
  | .error :: input => inputBytes input

/-- How many reads of a script fail. -/
def readErrors : List ReadEvent → ℕ
  | [] => 0
  | .data _ :: input => readErrors input
  | .error :: input => readErrors input + 1

/-- What becomes of one `write_all` and `flush`. -/
inductive WriteOutcome
  | done
  | failed
  /-- `write_all` succeeded and `flush` did not. -/
  | unflushed
  deriving DecidableEq, Repr

/-- What a connection does not choose: the width of `usize`, the masking key drawn for the
`i`-th frame, the outcome of the `i`-th write, and zlib. -/
structure Env where
  bits : ℕ
  bits_le : bits ≤ 64
  keys : ℕ → Key
  write : ℕ → WriteOutcome
  zlib : Zlib

/-- The length of a slice is at most `isize::MAX`. -/
def Env.Slice (e : Env) (bs : List UInt8) : Prop := bs.length < 2 ^ (e.bits - 1)

instance (e : Env) (bs : List UInt8) : Decidable (e.Slice bs) :=
  inferInstanceAs (Decidable (bs.length < 2 ^ (e.bits - 1)))

lemma Env.Slice.lt {e : Env} {bs : List UInt8} (h : e.Slice bs) :
    bs.length < 2 ^ 63 ∧ bs.length < 2 ^ e.bits := by
  have hbits := e.bits_le
  have h63 : 2 ^ (e.bits - 1) ≤ 2 ^ 63 := Nat.pow_le_pow_right (by omega) (by omega)
  have hle : 2 ^ (e.bits - 1) ≤ 2 ^ e.bits := Nat.pow_le_pow_right (by omega) (by omega)
  rw [Env.Slice] at h
  omega

/-- `Connection`, with the reads still to come and the frames written. -/
structure Connection where
  role : Role
  parser : Parser
  isOpen : Bool
  permessageDeflate : Bool
  outbound : List UInt8
  fragment : FragmentState
  lastClose : Option (UInt16 × List UInt8)
  readState : ReadState
  input : List ReadEvent
  written : List (List UInt8)
  writes : ℕ
  deriving DecidableEq, Repr

variable (e : Env)

namespace Connection

/-- `Connection::new`, followed by `set_permessage_deflate`. -/
def new (input : List ReadEvent) (role : Role) (deflate : Bool) : Connection where
  role := role
  parser := .new
  isOpen := true
  permessageDeflate := deflate
  outbound := []
  fragment := .reset
  lastClose := none
  readState := ⟨[], 0⟩
  input := input
  written := []
  writes := 0

/-! ## Sending -/

/-- `send_raw`. -/
def sendRaw (c : Connection) (frame : List UInt8) : Connection × Except Error Unit :=
  match e.write c.writes with
  | .done => ({ c with written := c.written ++ [frame], writes := c.writes + 1 }, .ok ())
  | .failed => ({ c with writes := c.writes + 1 }, .error .io)
  | .unflushed =>
      ({ c with written := c.written ++ [frame], writes := c.writes + 1 }, .error .io)

/-- `send_frame_into`. -/
def sendFrameInto (c : Connection) (build : List UInt8 → List UInt8) :
    Connection × Except Error Unit :=
  let out := build c.outbound
  sendRaw e { c with outbound := out } out

/-- Whether the connection masks what it sends. -/
def mask (c : Connection) : Bool := c.role == .client

/-- The call of `send_frame_into` with `FrameBuilder::build_into_opcode`. -/
def sendFrame (c : Connection) (opcode : Opcode) (data : List UInt8) (fin rsv1 : Bool) :
    Connection × Except Error Unit :=
  sendFrameInto e c fun out =>
    buildIntoOpcode out opcode data fin c.mask rsv1 (e.keys c.writes)

/-- `send_data_frame`. -/
def sendDataFrame (c : Connection) (opcode : Opcode) (data : List UInt8) (fin : Bool) :
    Connection × Except Error Unit :=
  if c.permessageDeflate && fin && (opcode == .text || opcode == .binary) then
    match compressMessage e.zlib data with
    | none => (c, .error (.protocol "permessage-deflate compression failed"))
    | some payload => sendFrame e c opcode payload fin true
  else sendFrame e c opcode data fin false

/-- `send_text`. -/
def sendText (c : Connection) (text : String) (fin : Bool) : Connection × Except Error Unit :=
  sendDataFrame e c .text (strBytes text) fin

/-- `send_binary`. -/
def sendBinary (c : Connection) (data : List UInt8) (fin : Bool) :
    Connection × Except Error Unit :=
  sendDataFrame e c .binary data fin

/-- `send_continuation`. -/
def sendContinuation (c : Connection) (data : List UInt8) (fin : Bool) :
    Connection × Except Error Unit :=
  sendFrame e c .continuation data fin false

/-- `send_ping`. -/
def sendPing (c : Connection) (data : List UInt8) : Connection × Except Error Unit :=
  sendFrame e c .ping data true false

/-- `send_pong`. -/
def sendPong (c : Connection) (data : List UInt8) : Connection × Except Error Unit :=
  sendFrame e c .pong data true false

/-- `build_close_into` and the write, then `open = false`: the common end of `close` and
`handle_close_frame`. -/
def sendClose (c : Connection) (code : UInt16) (reason : List UInt8) :
    Connection × Except Error Unit :=
  match sendFrameInto e c fun out =>
    buildCloseInto out code reason c.mask (e.keys c.writes) with
  | (c, .error err) => (c, .error err)
  | (c, .ok ()) => ({ c with isOpen := false }, .ok ())

/-- `close`. -/
def close (c : Connection) (code : UInt16) (reason : String) : Connection × Except Error Unit :=
  sendClose e c (sanitizeCloseCode code) (strBytes reason)

/-- `fail_protocol`. -/
def failProtocol {α : Type} (c : Connection) (reason : String) : Connection × Except Error α :=
  ((close e c 1002 reason).1, .error (.protocol reason))

/-! ## Reading frames -/

/-- `validate_incoming`. -/
def validateIncoming (header : FrameHeader) (role : Role) (deflate : Bool) : Except Error Unit :=
  let dataOpcode := header.opcode == .text || header.opcode == .binary ||
    header.opcode == .continuation
  if header.rsv1 && (!deflate || !dataOpcode) then
    .error (.protocol "RSV1 set without permessage-deflate")
  else if header.rsv1 && header.opcode == .continuation then
    .error (.protocol "RSV1 on continuation frame")
  else if header.rsv2 || header.rsv3 || (!deflate && header.rsv1) then
    .error (.protocol "RSV bits set without extension negotiation")
  else if role == .server && !header.mask then
    .error (.protocol "client frame must be masked")
  else if role == .client && header.mask then
    .error (.protocol "server frame must not be masked")
  else .ok ()

/-- The call to `parse` on the unparsed bytes, with the cursor moved on. -/
def parseBuffered (c : Connection) : Connection × Option Done :=
  let (parser, result, consumed) := c.parser.parse e.bits c.readState.unparsed
  ({ c with
     parser := parser
     readState := { c.readState with pos := c.readState.pos + consumed } }, result)

/-- The `Complete` arm of `read_frame`: the buffer is cleared when the cursor is at its end. -/
def completeFrame (c : Connection) : Connection × Except Error (Option Frame) :=
  let (frame, parser) := c.parser.takeFrame
  let rs := if c.readState.pos = c.readState.buf.length then ⟨[], 0⟩ else c.readState
  let c := { c with parser := parser, readState := rs }
  match validateIncoming frame.header c.role c.permessageDeflate with
  | .error err => (c, .error err)
  | .ok () => (c, .ok (some frame))

/-- The `drain` of the `Incomplete` arm. -/
def compact (c : Connection) : Connection :=
  if c.readState.pos > 0 then
    { c with readState := ⟨c.readState.buf.drop c.readState.pos, 0⟩ }
  else c

/-- The loop of `read_frame` on the reads to come. -/
def readLoop (c : Connection) (input : List ReadEvent) :
    Connection × Except Error (Option Frame) :=
  match parseBuffered e { c with input := input } with
  | (c, some .complete) => completeFrame c
  | (c, some .error) => failProtocol e c "invalid frame"
  | (c, none) =>
      let c := compact c
      match input with
      | [] => ({ c with isOpen := false }, .ok none)
      | .error :: input => ({ c with input := input }, .error .io)
      | .data chunk :: input =>
          readLoop { c with
            readState := { c.readState with buf := c.readState.buf ++ chunk.bytes } } input

/-- `read_frame`. -/
def readFrame (c : Connection) : Connection × Except Error (Option Frame) :=
  if !c.isOpen then (c, .ok none) else readLoop e c c.input

/-! ## Reading messages -/

/-- The end of `deliver_message`, on the decompressed payload. -/
def deliverPlain (c : Connection) (opcode : Opcode) (plain : List UInt8) :
    Connection × Except Error Message :=
  if opcode == .text && !isValidUtf8 plain then
    match close e c 1007 "Invalid UTF-8 in text frame" with
    | (c, .error err) => (c, .error err)
    | (c, .ok ()) => (c, .error (.protocol "invalid UTF-8 in text frame"))
  else (c, .ok ⟨opcode, plain⟩)

/-- `deliver_message`. -/
def deliverMessage (c : Connection) (opcode : Opcode) (payload : List UInt8)
    (compressed : Bool) : Connection × Except Error Message :=
  if compressed then
    if !c.permessageDeflate then
      failProtocol e c "Compressed frame without negotiated extension"
    else
      match decompressMessage e.zlib payload with
      | none => (c, .error (.protocol "permessage-deflate decompression failed"))
      | some plain => deliverPlain e c opcode plain
  else deliverPlain e c opcode payload

/-- `parse_close_payload`. -/
def parseClosePayload : List UInt8 → UInt16 × List UInt8
  | b0 :: b1 :: reason => (sanitizeCloseCode (closeCodeOf b0 b1), fromUtf8Lossy reason)
  | _ => (1000, [])

/-- `handle_close_frame`. -/
def handleCloseFrame (c : Connection) (payload : List UInt8) : Connection × Except Error Unit :=
  let (code, reason) := parseClosePayload payload
  sendClose e { c with lastClose := some (code, reason) } code []

/-- A result that ends `read_message`, in the form of one turn of its loop. -/
def finish {α : Type} (r : Connection × Except Error α) (f : α → Option Message) :
    Connection × Option (Except Error (Option Message)) :=
  (r.1, some (r.2.map f))

/-- The text and binary arm of `read_message`. -/
def handleData (c : Connection) (frame : Frame) (opcode : Opcode) :
    Connection × Option (Except Error (Option Message)) :=
  if c.fragment.active then
    finish (failProtocol (α := Message) e c
      "New data frame before fragmented message completed") some
  else if !frame.header.fin then
    ({ c with fragment := ⟨true, frame.payload, opcode, frame.header.rsv1⟩ }, none)
  else finish (deliverMessage e c opcode frame.payload frame.header.rsv1) some

/-- The `match` of `read_message` on one frame; `none` is `continue`. -/
def handleFrame (c : Connection) (frame : Frame) :
    Connection × Option (Except Error (Option Message)) :=
  let fin := frame.header.fin
  let payload := frame.payload
  match frame.header.opcode with
  | .close => finish (handleCloseFrame e c payload) fun _ => none
  | .ping =>
      match sendPong e c payload with
      | (c, .error err) => (c, some (.error err))
      | (c, .ok ()) => (c, none)
  | .pong => (c, none)
  | .continuation =>
      if !c.fragment.active then
        finish (failProtocol (α := Message) e c "Unexpected continuation frame") some
      else
        let buffer := c.fragment.buffer ++ payload
        if fin then
          finish (deliverMessage e { c with fragment := .reset } c.fragment.opcode buffer
            c.fragment.compressed) some
        else ({ c with fragment := { c.fragment with buffer := buffer } }, none)
  | .text => handleData e c frame .text
  | .binary => handleData e c frame .binary

/-- One turn of the loop of `read_message`. -/
def turn (c : Connection) : Connection × Option (Except Error (Option Message)) :=
  match readFrame e c with
  | (c, .error err) => (c, some (.error err))
  | (c, .ok none) => (c, some (.ok none))
  | (c, .ok (some frame)) => handleFrame e c frame

/-- The loop of `read_message` for at most so many turns. -/
def readMessageFuel : ℕ → Connection → Connection × Except Error (Option Message)
  | 0, c => (c, .ok none)
  | n + 1, c =>
      match turn e c with
      | (c, some r) => (c, r)
      | (c, none) => readMessageFuel n c

/-- The bytes the connection has not consumed, buffered and to come. -/
def pending (c : Connection) : List UInt8 := c.readState.unparsed ++ inputBytes c.input

/-- A bound on the frames the connection can still complete. -/
def todo (c : Connection) : ℕ := c.parser.weight + c.pending.length

/-- `read_message`. -/
def readMessage (c : Connection) : Connection × Except Error (Option Message) :=
  readMessageFuel e (c.todo + 1) c

/-! ## What a read does

`read_frame` works on the reads one by one, but what it does depends on them only through the
bytes they hold: `readLoop_cases` gives its four ends in terms of one call of the parser on all
the bytes that are buffered or still to come. -/

/-- The connection with another parser, buffer and script of reads. -/
def withRead (c : Connection) (parser : Parser) (rs : ReadState) (input : List ReadEvent) :
    Connection :=
  { c with parser := parser, readState := rs, input := input }

/-- What `read_frame` returns for a completed frame. -/
def verdict (role : Role) (deflate : Bool) (frame : Frame) : Except Error (Option Frame) :=
  match validateIncoming frame.header role deflate with
  | .error err => .error err
  | .ok () => .ok (some frame)

/-- What one call of the parser on all pending bytes gives. -/
def parseAll (c : Connection) : Parser × Option Done × List UInt8 :=
  outcome (Parser.sub e.bits) c.parser c.pending

/-- The four ends of `read_frame` on an open connection. -/
inductive ReadEnds (c : Connection) : Connection × Except Error (Option Frame) → Prop
  | frame {q : Parser} {rest : List UInt8} {rs : ReadState} {input : List ReadEvent}
      (hparse : parseAll e c = (q, some .complete, rest))
      (hrest : rs.unparsed ++ inputBytes input = rest)
      (hsuffix : input <:+ c.input) :
      ReadEnds c (c.withRead q.takeFrame.2 rs input,
        verdict c.role c.permessageDeflate q.takeFrame.1)
  | invalid {q : Parser} {rest : List UInt8} {rs : ReadState} {input : List ReadEvent}
      (hparse : parseAll e c = (q, some .error, rest))
      (hrest : rs.unparsed ++ inputBytes input = rest)
      (hsuffix : input <:+ c.input) :
      ReadEnds c (failProtocol e (c.withRead q rs input) "invalid frame")
  | eof {q : Parser} {rs : ReadState}
      (hparse : parseAll e c = (q, none, rs.unparsed)) :
      ReadEnds c ({ c.withRead q rs [] with isOpen := false }, .ok none)
  | ioError {q : Parser} {rs : ReadState} {input : List ReadEvent}
      (hparse : parseAll e (c.withRead q rs input) = parseAll e c)
      (hsuffix : .error :: input <:+ c.input) :
      ReadEnds c (c.withRead q rs input, .error .io)

lemma parseBuffered_eq (c : Connection) :
    ∃ q r k rs, pump (Parser.sub e.bits) c.parser c.readState.unparsed = (q, r, k) ∧
      parseBuffered e c = (c.withRead q rs c.input, r) ∧
      rs.unparsed = c.readState.unparsed.drop k := by
  refine ⟨_, _, _, { c.readState with pos := c.readState.pos +
    (Parser.parse e.bits c.parser c.readState.unparsed).2.2 }, rfl, rfl, ?_⟩
  simp only [ReadState.unparsed, List.drop_drop]
  rfl

lemma completeFrame_eq (c : Connection) :
    ∃ rs, completeFrame c = (c.withRead c.parser.takeFrame.2 rs c.input,
        verdict c.role c.permessageDeflate c.parser.takeFrame.1) ∧
      rs.unparsed = c.readState.unparsed := by
  refine ⟨if c.readState.pos = c.readState.buf.length then ⟨[], 0⟩ else c.readState, ?_, ?_⟩
  · rw [completeFrame, verdict]
    simp only
    split <;> rfl
  split
  · rename_i hpos
    simp [ReadState.unparsed, hpos]
  · rfl

lemma compact_eq (c : Connection) :
    ∃ rs, compact c = c.withRead c.parser rs c.input ∧ rs.unparsed = c.readState.unparsed ∧
      rs.pos = 0 := by
  rw [compact]
  split
  · exact ⟨_, rfl, rfl, rfl⟩
  · exact ⟨c.readState, rfl, rfl, by omega⟩

/-- A turn of the loop that has a result. -/
lemma readLoop_of_some {c : Connection} {input : List ReadEvent} {q : Parser} {d : Done} {k : ℕ}
    (h : pump (Parser.sub e.bits) c.parser c.readState.unparsed = (q, some d, k)) :
    ReadEnds e { c with input := input } (readLoop e c input) := by
  obtain ⟨q', r, k', rs, hpump, hbuf, hrs⟩ := parseBuffered_eq e { c with input := input }
  obtain ⟨rfl, rfl, rfl⟩ : q' = q ∧ r = some d ∧ k' = k := by
    simpa using hpump.symm.trans h
  have hparse : parseAll e { c with input := input } =
      (q', some d, rs.unparsed ++ inputBytes input) := by
    rw [hrs]
    exact outcome_append_some (Parser.splits e.bits) _ h
  rw [readLoop, hbuf]
  cases d with
  | complete =>
      obtain ⟨rs', heq, hrs'⟩ := completeFrame_eq (({ c with input := input } : Connection).withRead
        q' rs input)
      simp only [heq]
      exact .frame hparse (by rw [hrs']; rfl) List.suffix_rfl
  | error => exact .invalid hparse rfl List.suffix_rfl

/-- A turn of the loop that wants more bytes. -/
lemma readLoop_of_none {c : Connection} (input : List ReadEvent) {q : Parser} {k : ℕ}
    (h : pump (Parser.sub e.bits) c.parser c.readState.unparsed = (q, none, k)) :
    ∃ rs : ReadState, rs.unparsed = c.readState.unparsed.drop k ∧ rs.pos = 0 ∧
      readLoop e c input =
        match input with
        | [] => ({ c.withRead q rs [] with isOpen := false }, .ok none)
        | .error :: input => (c.withRead q rs input, .error .io)
        | .data chunk :: input' =>
            readLoop e (c.withRead q ⟨rs.buf ++ chunk.bytes, 0⟩ input) input' := by
  obtain ⟨q', r, k', rs, hpump, hbuf, hrs⟩ := parseBuffered_eq e { c with input := input }
  obtain ⟨rfl, rfl, rfl⟩ : q' = q ∧ r = none ∧ k' = k := by
    simpa using hpump.symm.trans h
  obtain ⟨rs', heq, hrs', hpos⟩ := compact_eq (({ c with input := input } : Connection).withRead
    q' rs input)
  refine ⟨rs', hrs'.trans hrs, hpos, ?_⟩
  rw [readLoop, hbuf]
  simp only [heq]
  rcases input with _ | ⟨_ | _, input⟩
  · rfl
  · simp only [withRead, hpos]
  · rfl

/-- Moving bytes from the script to the parser or the buffer changes nothing. -/
lemma ReadEnds.of_withRead {c : Connection} {q : Parser} {rs : ReadState}
    {input : List ReadEvent} {r : Connection × Except Error (Option Frame)}
    (h : ReadEnds e (c.withRead q rs input) r)
    (hparse : parseAll e (c.withRead q rs input) = parseAll e c)
    (hsuffix : input <:+ c.input) : ReadEnds e c r := by
  cases h with
  | frame hp hrest hs => exact .frame (c := c) (hparse ▸ hp) hrest (hs.trans hsuffix)
  | invalid hp hrest hs => exact .invalid (c := c) (hparse ▸ hp) hrest (hs.trans hsuffix)
  | eof hp => exact .eof (c := c) (hparse ▸ hp)
  | ioError hp hs => exact .ioError (c := c) (hparse ▸ hp) (hs.trans hsuffix)

/-- **What the loop of `read_frame` does.** -/
lemma readLoop_cases (c : Connection) (input : List ReadEvent) :
    ReadEnds e { c with input := input } (readLoop e c input) := by
  induction input generalizing c with
  | nil =>
      rcases hpump : pump (Parser.sub e.bits) c.parser c.readState.unparsed with ⟨q, _ | d, k⟩
      · obtain ⟨rs, hrs, -, heq⟩ := readLoop_of_none e [] hpump
        rw [heq]
        refine .eof (c := { c with input := [] }) ?_
        simp [parseAll, outcome, pending, inputBytes, hpump, hrs]
      · exact readLoop_of_some e hpump
  | cons ev input ih =>
      rcases hpump : pump (Parser.sub e.bits) c.parser c.readState.unparsed with ⟨q, _ | d, k⟩
      · obtain ⟨rs, hrs, hpos, heq⟩ := readLoop_of_none e (ev :: input) hpump
        have hnext := outcome_append_none (Parser.splits e.bits) (inputBytes (ev :: input)) hpump
        rw [← hrs] at hnext
        rw [heq]
        cases ev with
        | error =>
            exact .ioError (c := { c with input := .error :: input }) hnext.symm List.suffix_rfl
        | data chunk =>
            have hrec := ih (c.withRead q ⟨rs.buf ++ chunk.bytes, 0⟩ (.data chunk :: input))
            have hbuf : rs.unparsed = rs.buf := by rw [ReadState.unparsed, hpos, List.drop_zero]
            refine ReadEnds.of_withRead e (c := { c with input := .data chunk :: input }) hrec ?_
              (List.suffix_cons _ _)
            rw [hbuf] at hnext
            simp only [parseAll, pending, withRead, ReadState.unparsed, List.drop_zero,
              List.append_assoc]
            exact hnext.symm
      · exact readLoop_of_some e hpump

/-- **What `read_frame` does on an open connection.** -/
lemma readFrame_cases {c : Connection} (h : c.isOpen = true) : ReadEnds e c (readFrame e c) := by
  rw [readFrame, h]
  exact readLoop_cases e c c.input

lemma readFrame_of_closed {c : Connection} (h : c.isOpen = false) :
    readFrame e c = (c, .ok none) := by
  rw [readFrame, h]
  rfl

/-- The frames that `read_frame` returns. -/
lemma readFrame_eq_frame {c c' : Connection} {frame : Frame}
    (h : readFrame e c = (c', .ok (some frame))) :
    c.isOpen = true ∧ ∃ q rs input,
      parseAll e c = (q, some .complete, rs.unparsed ++ inputBytes input) ∧
      c' = c.withRead q.takeFrame.2 rs input ∧ frame = q.takeFrame.1 ∧
      validateIncoming frame.header c.role c.permessageDeflate = .ok () := by
  cases hopen : c.isOpen with
  | false =>
      rw [readFrame_of_closed e hopen] at h
      simp at h
  | true =>
      refine ⟨rfl, ?_⟩
      have hends := readFrame_cases e hopen
      generalize readFrame e c = r at h hends
      cases hends with
      | frame hparse hrest hsuffix =>
          obtain ⟨rfl, hframe⟩ := Prod.mk.inj h
          rw [verdict] at hframe
          split at hframe
          · simp at hframe
          · rename_i hvalid
            obtain rfl := Option.some.inj (Except.ok.inj hframe)
            exact ⟨_, _, _, hrest ▸ hparse, rfl, rfl, hvalid⟩
      | invalid hparse hrest hsuffix => simp [failProtocol] at h
      | eof hparse => simp at h
      | ioError hparse hsuffix => simp at h

/-! ## Sending leaves the read side alone -/

section WithRead

variable (c : Connection) (parser : Parser) (rs : ReadState) (input : List ReadEvent)

/-- A result, with the read side of the connection replaced. -/
def resultWithRead {α : Type} (r : Connection × α) : Connection × α :=
  (r.1.withRead parser rs input, r.2)

lemma sendFrameInto_withRead (build : List UInt8 → List UInt8) :
    sendFrameInto e (c.withRead parser rs input) build =
      resultWithRead parser rs input (sendFrameInto e c build) := by
  simp only [sendFrameInto, sendRaw, withRead, resultWithRead]
  split <;> rfl

lemma sendClose_withRead (code : UInt16) (reason : List UInt8) :
    sendClose e (c.withRead parser rs input) code reason =
      resultWithRead parser rs input (sendClose e c code reason) := by
  have h := sendFrameInto_withRead e c parser rs input
    fun out => buildCloseInto out code reason c.mask (e.keys c.writes)
  rw [sendClose, sendClose]
  simp only [mask, withRead] at h ⊢
  rw [h]
  generalize sendFrameInto e c _ = r
  rcases r with ⟨c', _ | _⟩ <;> rfl

lemma failProtocol_withRead {α : Type} (reason : String) :
    failProtocol (α := α) e (c.withRead parser rs input) reason =
      resultWithRead parser rs input (failProtocol e c reason) := by
  simp only [failProtocol, close, sendClose_withRead]
  rfl

lemma deliverPlain_withRead (opcode : Opcode) (plain : List UInt8) :
    deliverPlain e (c.withRead parser rs input) opcode plain =
      resultWithRead parser rs input (deliverPlain e c opcode plain) := by
  simp only [deliverPlain, close, sendClose_withRead]
  split
  · generalize sendClose e c _ _ = r
    rcases r with ⟨c', _ | _⟩ <;> rfl
  · rfl

lemma deliverMessage_withRead (opcode : Opcode) (payload : List UInt8) (compressed : Bool) :
    deliverMessage e (c.withRead parser rs input) opcode payload compressed =
      resultWithRead parser rs input (deliverMessage e c opcode payload compressed) := by
  simp only [deliverMessage, failProtocol_withRead, deliverPlain_withRead]
  split
  · have hdeflate : (c.withRead parser rs input).permessageDeflate = c.permessageDeflate := rfl
    rw [hdeflate]
    split
    · rfl
    · split <;> rfl
  · rfl

lemma sendPong_withRead (data : List UInt8) :
    sendPong e (c.withRead parser rs input) data =
      resultWithRead parser rs input (sendPong e c data) :=
  sendFrameInto_withRead e c parser rs input
    fun out => buildIntoOpcode out .pong data true c.mask false (e.keys c.writes)

lemma handleCloseFrame_withRead (payload : List UInt8) :
    handleCloseFrame e (c.withRead parser rs input) payload =
      resultWithRead parser rs input (handleCloseFrame e c payload) :=
  sendClose_withRead e { c with lastClose := some (parseClosePayload payload) } parser rs input
    (parseClosePayload payload).1 []

lemma handleData_withRead (frame : Frame) (opcode : Opcode) :
    handleData e (c.withRead parser rs input) frame opcode =
      resultWithRead parser rs input (handleData e c frame opcode) := by
  have hfrag : (c.withRead parser rs input).fragment = c.fragment := rfl
  simp only [handleData, failProtocol_withRead, deliverMessage_withRead, hfrag]
  split_ifs <;> rfl

lemma handleFrame_withRead (frame : Frame) :
    handleFrame e (c.withRead parser rs input) frame =
      resultWithRead parser rs input (handleFrame e c frame) := by
  have hfrag : (c.withRead parser rs input).fragment = c.fragment := rfl
  cases hop : frame.header.opcode with
  | text => simp only [handleFrame, hop, handleData_withRead]
  | binary => simp only [handleFrame, hop, handleData_withRead]
  | close =>
      simp only [handleFrame, hop, handleCloseFrame_withRead]
      rfl
  | ping =>
      simp only [handleFrame, hop, sendPong_withRead]
      generalize sendPong e c frame.payload = r
      rcases r with ⟨c', _ | _⟩ <;> rfl
  | pong => simp only [handleFrame, hop, resultWithRead]
  | continuation =>
      have hdeliver := deliverMessage_withRead e { c with fragment := .reset } parser rs input
        c.fragment.opcode (c.fragment.buffer ++ frame.payload) c.fragment.compressed
      simp only [handleFrame, hop, failProtocol_withRead, hfrag]
      split_ifs
      · rfl
      · exact congrArg (fun r => finish r some) hdeliver
      · rfl

end WithRead

lemma handleFrame_read (c : Connection) (frame : Frame) :
    (handleFrame e c frame).1.withRead c.parser c.readState c.input =
      (handleFrame e c frame).1 :=
  congrArg Prod.fst (handleFrame_withRead e c c.parser c.readState c.input frame).symm

/-! ## The loop of `read_message` -/

lemma todo_of_readFrame {c c' : Connection} {frame : Frame}
    (h : readFrame e c = (c', .ok (some frame))) : c'.todo < c.todo := by
  obtain ⟨-, q, rs, input, hparse, rfl, -, -⟩ := readFrame_eq_frame e h
  have h := Parser.weight_of_outcome hparse
  exact h

/-- A frame that was read and handled is no longer to do. -/
lemma todo_of_handleFrame {c c₁ : Connection} {frame : Frame}
    (h : readFrame e c = (c₁, .ok (some frame))) : (handleFrame e c₁ frame).1.todo < c.todo := by
  have hsame := handleFrame_read e c₁ frame
  calc (handleFrame e c₁ frame).1.todo =
        ((handleFrame e c₁ frame).1.withRead c₁.parser c₁.readState c₁.input).todo := by rw [hsame]
    _ = c₁.todo := rfl
    _ < c.todo := todo_of_readFrame e h

lemma todo_of_turn {c c' : Connection} (h : turn e c = (c', none)) : c'.todo < c.todo := by
  rw [turn] at h
  split at h
  · simp at h
  · simp at h
  · rename_i c₁ frame hread
    have hless := todo_of_handleFrame e hread
    rwa [h] at hless

lemma readMessageFuel_congr {n m : ℕ} {c : Connection} (hn : c.todo < n) (hm : c.todo < m) :
    readMessageFuel e n c = readMessageFuel e m c := by
  induction n generalizing m c with
  | zero => omega
  | succ n ih =>
      obtain ⟨m, rfl⟩ : ∃ j, m = j + 1 := ⟨m - 1, by omega⟩
      rw [readMessageFuel, readMessageFuel]
      rcases hturn : turn e c with ⟨c', _ | r⟩
      · have := todo_of_turn e hturn
        exact ih (by omega) (by omega)
      · rfl

/-- **`read_message` is its loop.** -/
lemma readMessage_eq (c : Connection) :
    readMessage e c =
      match turn e c with
      | (c, some r) => (c, r)
      | (c, none) => readMessage e c := by
  rw [readMessage, readMessageFuel]
  rcases hturn : turn e c with ⟨c', _ | r⟩
  · have := todo_of_turn e hturn
    exact readMessageFuel_congr e (by omega) (by omega)
  · rfl

/-! ## Frames at a boundary -/

/-- The connection has read whole frames, `rest` is what follows, and no read fails. -/
structure AtFrame (c : Connection) (rest : List UInt8) : Prop where
  header : c.parser.state = .header
  pending : c.pending = rest
  noErrors : readErrors c.input = 0

lemma inputBytes_append (a b : List ReadEvent) :
    inputBytes (a ++ b) = inputBytes a ++ inputBytes b := by
  induction a with
  | nil => rfl
  | cons ev a ih => cases ev <;> simp [inputBytes, ih]

lemma readErrors_append (a b : List ReadEvent) :
    readErrors (a ++ b) = readErrors a + readErrors b := by
  induction a with
  | nil => simp [readErrors]
  | cons ev a ih =>
      cases ev with
      | data chunk => exact ih
      | error =>
          simp only [List.cons_append, readErrors, ih]
          omega

lemma readErrors_le_of_suffix {a b : List ReadEvent} (h : a <:+ b) :
    readErrors a ≤ readErrors b := by
  obtain ⟨t, rfl⟩ := h
  rw [readErrors_append]
  omega

/-- The frame that `read_frame` makes of a frame on the wire. -/
def frameOf (c : Connection) (f : WireFrame) (opcode : Opcode) : Frame :=
  ⟨headerOf f opcode c.parser.header.maskingKey, f.payload⟩

/-- **`read_frame` reads the next frame**, provided it has a payload or a byte follows it, and
leaves the parser behind that frame. -/
lemma readFrame_frame {c : Connection} {f : WireFrame} {opcode : Opcode} {rest : List UInt8}
    (hopen : c.isOpen = true) (hat : c.AtFrame (f.encode ++ rest))
    (hop : Opcode.fromU8 f.op = some opcode) (hslice : e.Slice f.payload)
    (hne : f.payload ≠ [] ∨ rest ≠ []) :
    ∃ rs input, (c.withRead (c.parser.afterFrame f opcode).takeFrame.2 rs input).AtFrame rest ∧
      readFrame e c = (c.withRead (c.parser.afterFrame f opcode).takeFrame.2 rs input,
        verdict c.role c.permessageDeflate (c.frameOf f opcode)) := by
  have hparse : parseAll e c =
      (Parser.afterFrame c.parser f opcode, some .complete, rest) := by
    rw [parseAll, hat.pending]
    exact Parser.outcome_encode hat.header hop hslice.lt.1 hslice.lt.2 hne
  have hends := readFrame_cases e hopen
  generalize readFrame e c = r at hends
  cases hends with
  | frame hp hrest hsuffix =>
      have hsame := hp.symm.trans hparse
      simp only [Prod.mk.injEq, true_and] at hsame
      obtain ⟨rfl, rfl⟩ := hsame
      refine ⟨_, _, ⟨rfl, hrest, ?_⟩, rfl⟩
      have hle := readErrors_le_of_suffix hsuffix
      rw [hat.noErrors] at hle
      exact Nat.le_zero.mp hle
  | invalid hp hrest hsuffix => simp [hp] at hparse
  | eof hp => simp [hp] at hparse
  | ioError hp hsuffix =>
      have hle := readErrors_le_of_suffix hsuffix
      rw [hat.noErrors, readErrors] at hle
      omega

lemma readFrame_of_frame {c : Connection} {f : WireFrame} {opcode : Opcode} {rest : List UInt8}
    (hopen : c.isOpen = true) (hat : c.AtFrame (f.encode ++ rest))
    (hop : Opcode.fromU8 f.op = some opcode) (hslice : e.Slice f.payload)
    (hne : f.payload ≠ [] ∨ rest ≠ []) :
    ∃ c₁, c₁.AtFrame rest ∧ (∃ q rs input, c₁ = c.withRead q rs input) ∧
      readFrame e c = (c₁, verdict c.role c.permessageDeflate (c.frameOf f opcode)) := by
  obtain ⟨rs, input, hat', heq⟩ := readFrame_frame e hopen hat hop hslice hne
  exact ⟨_, hat', ⟨_, _, _, rfl⟩, heq⟩

/-- A frame without payload at the end of the stream: the stream ends first. -/
lemma readFrame_of_empty_last {c : Connection} {f : WireFrame} {opcode : Opcode}
    (hopen : c.isOpen = true) (hat : c.AtFrame f.encode)
    (hop : Opcode.fromU8 f.op = some opcode) (hpay : f.payload = []) :
    (readFrame e c).2 = .ok none := by
  have hparse : (parseAll e c).2.1 = none := by
    rw [parseAll, hat.pending, Parser.outcome_encode_pending e.bits hat.header hop hpay]
  have hends := readFrame_cases e hopen
  generalize readFrame e c = r at hends
  cases hends with
  | frame hp hrest hsuffix => simp [hp] at hparse
  | invalid hp hrest hsuffix => simp [hp] at hparse
  | eof hp => rfl
  | ioError hp hsuffix =>
      have hle := readErrors_le_of_suffix hsuffix
      rw [hat.noErrors, readErrors] at hle
      omega

/-! ## Writes that succeed -/

/-- The byte string of a frame this connection would send next. -/
def outFrame (c : Connection) (opcode : Opcode) (payload : List UInt8) (fin rsv1 : Bool) :
    List UInt8 :=
  encodeParts fin rsv1 false false opcode.toU8 (.shortest payload.length)
    (keyIf c.mask (e.keys c.writes)) payload

/-- The connection after it has written a frame. -/
def sent (c : Connection) (frame : List UInt8) : Connection :=
  { c with outbound := frame, written := c.written ++ [frame], writes := c.writes + 1 }

lemma sendFrame_done {c : Connection} (hw : e.write c.writes = .done) (opcode : Opcode)
    (data : List UInt8) (fin rsv1 : Bool) :
    sendFrame e c opcode data fin rsv1 = (c.sent (outFrame e c opcode data fin rsv1), .ok ()) := by
  simp only [sendFrame, sendFrameInto, sendRaw, hw, buildIntoOpcode, encodeInto_eq]
  rfl

lemma sendClose_done {c : Connection} (hw : e.write c.writes = .done) (code : UInt16)
    (reason : List UInt8) :
    sendClose e c code reason =
      ({ c.sent (outFrame e c .close (closeCodeBytes code ++ reason) true false) with
          isOpen := false }, .ok ()) := by
  simp only [sendClose, sendFrameInto, sendRaw, hw, buildCloseInto_eq]
  rfl

end Connection

end Wscpp.Rs
