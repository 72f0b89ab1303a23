import Wscpp.Cpp.Calls
import Wscpp.Cpp.Failure

/-!
# A client that connects again

After a session a `client` can be connected again.  Its connection is the same object: `connect`
sets `is_open_` and asks for a reader, and resets nothing else.  What is left of the session before
are `is_closing_` of the client and of the connection, `reader_running_`, the message that was under
way, `payload_buffer_`, which an empty frame leaves as it is, and `permessage_deflate_`, which a
handshake sets and never clears.

`reader_running_` is cleared when the reader is joined, and only `close` joins it, which has set
`is_closing_` before.  So after every session that is over, reader included, the client connects and
reads nothing.  It behaves as a new one exactly when the reader of the old session has not left
`read_loop` yet, as in a handler of `on_close`, and the members that it goes on with are as they
were made (`reconnect_fresh_iff`).

The moves are those of `Wscpp.Cpp.Calls`, each call run as a whole, for the client: `connect` and
`close` have its own flags in them, and a turn of `read_loop` is taken by the reader if there is one
in it.  A handler's calls follow the turn that invoked it, before the test with which the reader
goes on.  The process is over once `terminated` is set.
-/

namespace Wscpp.Cpp.Reconnect

open Utf8

/-! ## The client -/

/-- The reader thread. -/
inductive Reader
  /-- None was started, or it was joined: `reader_running_` is not set. -/
  | absent
  | looping
  /-- It has left `read_loop`, and `reader_running_` is set. -/
  | ended
  deriving DecidableEq, Repr

/-- `client::impl`, with the reader thread of its connection. -/
structure Client where
  conn : Connection
  isOpen : Bool
  isClosing : Bool
  reader : Reader
  deriving DecidableEq, Repr

namespace Client

variable (p : Platform)

/-- A client that has just been made, when so many frames have been written before it. -/
def new (writes : ℕ) : Client where
  conn := { Connection.new .client false [] with
    isOpen := false
    socketOpen := false
    writes := writes }
  isOpen := false
  isClosing := false
  reader := .absent

/-- `client::impl::connect` when it succeeds; `deflate` says whether the handshake negotiates
permessage-deflate. -/
def connect (c : Client) (deflate : Bool) : Client where
  conn := { c.conn with
    input := []
    socketOpen := true
    permessageDeflate := p.deflate && (c.conn.permessageDeflate || deflate)
    isOpen := true }
  isOpen := true
  isClosing := c.isClosing
  reader := if c.reader = .absent then .looping else c.reader

/-- `client::impl::connect` when it fails, at the socket or behind it. -/
def connectFailed (c : Client) (dialled : Bool) : Client :=
  { c with conn := { c.conn with input := [], socketOpen := dialled } }

/-- `client::impl::close`.  Where the connection is closed its reader is joined, unless it is the
reader that calls. -/
def close (c : Client) (code : UInt16) (reason : List UInt8) (onReader : Bool) : Client :=
  if !c.isOpen || c.isClosing then c
  else
    { conn := c.conn.close p code reason
      isOpen := false
      isClosing := true
      reader :=
        if (!c.conn.isOpen || c.conn.isClosing) || onReader then c.reader else .absent }

/-- The read of `read_one_frame` fails, and it returns false whatever `is_open_` is. -/
def readBreaks (c : Connection) : Bool :=
  match c.readExact 2 with
  | some ([first, second], c) => (c.parseHeader p first second).2
  | _ => true

/-- A turn of `read_loop`. -/
def read (c : Client) : Client :=
  match c.reader with
  | .looping =>
      if c.conn.isOpen && !c.conn.isClosing then
        { c with
          conn := (c.conn.readOneFrame p).1
          reader := if readBreaks p c.conn then .ended else .looping }
      else { c with reader := .ended }
  | _ => c

end Client

/-- What can happen next. -/
inductive Move
  | connect (deflate : Bool)
  | connectFailed (dialled : Bool)
  | sendText (text : List UInt8) (fin : Bool)
  | sendBinary (data : List UInt8) (fin : Bool)
  | sendContinuation (data : List UInt8) (fin : Bool)
  | close (code : UInt16) (reason : List UInt8) (onReader : Bool)
  /-- Bytes come from the peer. -/
  | arrive (bytes : List UInt8)
  /-- The reader has its turn. -/
  | read
  deriving DecidableEq, Repr

/-- What can be seen of a move: the callbacks, the frames written, the error code returned, and what
`is_open` says then. -/
structure Seen where
  events : List Event
  frames : List (List UInt8)
  result : Option SendError
  isOpen : Bool
  deriving DecidableEq, Repr

namespace Client

variable (p : Platform)

/-- The client after a call of its connection. -/
def sent (c : Client) (r : Connection × Option SendError) : Client × Option SendError :=
  ({ c with conn := r.1 }, r.2)

/-- The client after a move, and the error code. -/
def exec (c : Client) (m : Move) : Client × Option SendError :=
  if c.conn.terminated then (c, none)
  else
    match m with
    | .connect deflate => (c.connect p deflate, none)
    | .connectFailed dialled => (c.connectFailed dialled, none)
    | .sendText text fin => c.sent (c.conn.sendText p text fin)
    | .sendBinary data fin => c.sent (c.conn.sendBinary p data fin)
    | .sendContinuation data fin => c.sent (c.conn.sendContinuation p data fin)
    | .close code reason onReader => (c.close p code reason onReader, none)
    | .arrive bytes => ({ c with conn := { c.conn with input := c.conn.input ++ bytes } }, none)
    | .read => (c.read p, none)

/-- What is seen of a move. -/
def seen (c : Client) (m : Move) : Seen where
  events := (c.exec p m).1.conn.events.drop c.conn.events.length
  frames := (c.exec p m).1.conn.wire.drop c.conn.wire.length
  result := (c.exec p m).2
  isOpen := (c.exec p m).1.isOpen

/-- The client after some moves. -/
def after (c : Client) : List Move → Client
  | [] => c
  | m :: ms => after (c.exec p m).1 ms

/-- What is seen of some moves. -/
def trace (c : Client) : List Move → List Seen
  | [] => []
  | m :: ms => c.seen p m :: trace (c.exec p m).1 ms

/-- Nothing of the session before makes a difference: the reader has not left its loop, or there was
none; no `close` was made; and the members that the reader uses are as in a new connection. -/
structure Clean (c : Client) (deflate : Bool) : Prop where
  reader : c.reader ≠ .ended
  isClosing : c.isClosing = false
  closing : c.conn.isClosing = false
  fragmented : c.conn.fragmented = false
  payloadBuffer : c.conn.payloadBuffer = []
  deflate : p.deflate = true → c.conn.permessageDeflate = true → deflate = true

end Client

/-! ## Connections that behave alike -/

/-- The callbacks and the frames of a connection at some time. -/
structure Mark where
  events : List Event
  wire : List (List UInt8)

/-- Two connections whose differences do not show, and which have done the same since the one was at
`b` and the other at `b'`. -/
structure Alike (b b' : Mark) (c d : Connection) : Prop where
  role : c.role = d.role
  deflate : c.permessageDeflate = d.permessageDeflate
  isOpen : c.isOpen = d.isOpen
  isClosing : c.isClosing = d.isClosing
  payloadBuffer : c.payloadBuffer = d.payloadBuffer
  fragmented : c.fragmented = d.fragmented
  message : c.fragmented = true → c.messageBuffer = d.messageBuffer ∧
    c.messageOpcode = d.messageOpcode ∧ c.messageCompressed = d.messageCompressed
  socketOpen : c.socketOpen = d.socketOpen
  input : c.input = d.input
  writes : c.writes = d.writes
  terminated : c.terminated = d.terminated
  events : ∃ es, c.events = b.events ++ es ∧ d.events = b'.events ++ es
  wire : ∃ ws, c.wire = b.wire ++ ws ∧ d.wire = b'.wire ++ ws

/-- Two headers that differ at most in the key. -/
structure SameFields (g h : FrameHeader) : Prop where
  fin : g.fin = h.fin
  rsv1 : g.rsv1 = h.rsv1
  rsv2 : g.rsv2 = h.rsv2
  rsv3 : g.rsv3 = h.rsv3
  op : g.op = h.op
  mask : g.mask = h.mask
  payloadLen : g.payloadLen = h.payloadLen

/-- Two headers that differ at most in the key of an unmasked frame. -/
structure SameHeader (g h : FrameHeader) : Prop extends SameFields g h where
  maskingKey : g.mask = true → g.maskingKey = h.maskingKey

lemma rel_ite {α β : Type} {R : α → β → Prop} {P Q : Prop} [Decidable P] [Decidable Q]
    {x y : α} {x' y' : β} (hPQ : P ↔ Q) (hx : P → R x x') (hy : ¬P → R y y') :
    R (if P then x else y) (if Q then x' else y') := by
  by_cases hP : P
  · rw [if_pos hP, if_pos (hPQ.mp hP)]
    exact hx hP
  · rw [if_neg hP, if_neg fun hQ => hP (hPQ.mpr hQ)]
    exact hy hP

/-- Two connections, each with a result of the call that led to it. -/
def Both {α : Type} (b b' : Mark) (r s : Connection × α) : Prop := Alike b b' r.1 s.1 ∧ r.2 = s.2

/-- Two steps of reading a header: both fail, or both lead to connections with such headers. -/
def Each (b b' : Mark) (P : FrameHeader → FrameHeader → Prop) (r s : Option Connection) : Prop :=
  (r = none ∧ s = none) ∨ ∃ c d, r = some c ∧ s = some d ∧ Alike b b' c d ∧
    P c.currentHeader d.currentHeader

namespace Alike

open Connection

variable {p : Platform} {b b' : Mark} {c d : Connection}

/-! Fields that do not show, or that are set on both sides. -/

lemma emit (h : Alike b b' c d) (e : Event) :
    Alike b b' { c with events := c.events ++ [e] } { d with events := d.events ++ [e] } := by
  obtain ⟨es, hc, hd⟩ := h.events
  refine { h with events := ⟨es ++ [e], ?_, ?_⟩ }
  · rw [hc, List.append_assoc]
  · rw [hd, List.append_assoc]

lemma setOutbound (h : Alike b b' c d) (out out' : List UInt8) :
    Alike b b' { c with outboundFrame := out } { d with outboundFrame := out' } :=
  { h with }

lemma setClosing (h : Alike b b' c d) :
    Alike b b' { c with isClosing := true } { d with isClosing := true } :=
  { h with isClosing := rfl }

lemma clearOpen (h : Alike b b' c d) :
    Alike b b' { c with isOpen := false } { d with isOpen := false } :=
  { h with isOpen := rfl }

lemma setInput (h : Alike b b' c d) (input : List UInt8) :
    Alike b b' { c with input := input } { d with input := input } :=
  { h with input := rfl }

lemma setSocket (h : Alike b b' c d) (socketOpen : Bool) :
    Alike b b' { c with socketOpen := socketOpen } { d with socketOpen := socketOpen } :=
  { h with socketOpen := rfl }

lemma setHeader (h : Alike b b' c d) (g g' : FrameHeader) :
    Alike b b' { c with currentHeader := g } { d with currentHeader := g' } :=
  { h with }

lemma setPayload (h : Alike b b' c d) {payload payload' : List UInt8}
    (hpayload : payload = payload') :
    Alike b b' { c with payloadBuffer := payload } { d with payloadBuffer := payload' } :=
  { h with payloadBuffer := hpayload }

/-! Writing and failing. -/

lemma write (h : Alike b b' c d) (hout : c.outboundFrame = d.outboundFrame) :
    Both b b' (c.write p) (d.write p) := by
  refine rel_ite (by rw [h.socketOpen, h.writes]) (fun _ => ?_) fun _ => ?_
  · obtain ⟨ws, hc, hd⟩ := h.wire
    refine ⟨{ h with
      writes := congrArg (· + 1) h.writes
      wire := ⟨ws ++ [c.outboundFrame], ?_, ?_⟩ }, rfl⟩
    · rw [hc, List.append_assoc]
    · rw [hd, hout, List.append_assoc]
  · exact ⟨{ h with writes := congrArg (· + 1) h.writes }, rfl⟩

lemma outboundMask (h : Alike b b' c d) : c.outboundMask = d.outboundMask := by
  rw [Connection.outboundMask, h.role]
  rfl

lemma writeClose (h : Alike b b' c d) (code : UInt16) (reason : List UInt8) :
    Alike b b' ((c.buildClose p code reason).write p).1
      ((d.buildClose p code reason).write p).1 := by
  refine (write (h.setOutbound _ _) ?_).1
  rw [buildCloseInto_eq, buildCloseInto_eq, h.outboundMask, h.writes]

lemma failWithClose (h : Alike b b' c d) (code : UInt16) (reason : String) :
    Alike b b' (c.failWithClose p code reason) (d.failWithClose p code reason) := by
  have htold := h.emit (.onError (.reason reason))
  have htest : (c.isOpen && !c.isClosing) = true ↔ (d.isOpen && !d.isClosing) = true := by
    rw [h.isOpen, h.isClosing]
  refine emit (clearOpen (setSocket ?_ false)) _
  exact rel_ite htest (fun _ => writeClose htold.setClosing code (strBytes reason)) fun _ => htold

/-! Frames. -/

lemma deliverPlain (h : Alike b b' c d) (payload : List UInt8) (op : UInt8) :
    Alike b b' (c.deliverPlain p payload op) (d.deliverPlain p payload op) :=
  rel_ite Iff.rfl (fun _ => h.failWithClose 1007 _) fun _ => h.emit (.onMessage payload op)

lemma deliverMessage (h : Alike b b' c d) {payload payload' : List UInt8} {op op' : UInt8}
    {compressed compressed' : Bool} (hpayload : payload = payload') (hop : op = op')
    (hcompressed : compressed = compressed') :
    Both b b' (c.deliverMessage p payload op compressed)
      (d.deliverMessage p payload' op' compressed') := by
  subst hpayload hop hcompressed
  refine rel_ite Iff.rfl (fun _ => ?_) fun _ => ⟨h.deliverPlain payload op, rfl⟩
  refine rel_ite (by rw [h.deflate]) (fun _ => ⟨h.failWithClose 1002 _, rfl⟩) fun _ => ?_
  cases decompressMessage p.zlib payload with
  | none => exact ⟨h.failWithClose 1002 _, rfl⟩
  | some plain => exact ⟨h.deliverPlain plain op, rfl⟩

lemma resetFragmentState (h : Alike b b' c d) :
    Alike b b' c.resetFragmentState d.resetFragmentState :=
  { h with
    fragmented := rfl
    message := fun _ => ⟨rfl, rfl, rfl⟩ }

lemma handleCloseFrame (h : Alike b b' c d) :
    Alike b b' (c.handleCloseFrame p) (d.handleCloseFrame p) := by
  have hexpecting :
      Alike b b' { c with expectingClose := true } { d with expectingClose := true } :=
    { h with }
  have hd : d.handleCloseFrame p = Connection.emitClose
      { ((Connection.buildClose p { d with expectingClose := true }
          (closeStatus c.payloadBuffer) []).write p).1 with isOpen := false }
      (closeStatus c.payloadBuffer) (c.payloadBuffer.drop 2) := by
    rw [h.payloadBuffer]
    rfl
  rw [hd]
  exact (hexpecting.writeClose _ _).clearOpen.emit _

/-- A pong is written, and a failure reported. -/
lemma reply (h : Alike b b' c d) (hout : c.outboundFrame = d.outboundFrame) :
    Alike b b'
      (match c.write p with
        | (c, true) => c
        | (c, false) => c.emitError .errorCode)
      (match d.write p with
        | (d, true) => d
        | (d, false) => d.emitError .errorCode) := by
  obtain ⟨hwritten, hresult⟩ := h.write (p := p) hout
  generalize c.write p = r at hwritten hresult ⊢
  generalize d.write p = s at hwritten hresult ⊢
  obtain ⟨c', ok⟩ := r
  obtain ⟨d', ok'⟩ := s
  obtain rfl : ok = ok' := hresult
  cases ok with
  | true => exact hwritten
  | false => exact hwritten.emit _

lemma handlePingFrame (h : Alike b b' c d) :
    Alike b b' (c.handlePingFrame p) (d.handlePingFrame p) := by
  refine rel_ite (by rw [h.isClosing, h.isOpen]) (fun _ => h) fun _ => ?_
  refine reply (h.setOutbound _ _) ?_
  rw [buildInto_eq, buildInto_eq, h.payloadBuffer, h.outboundMask, h.writes]

lemma handleContinuation (h : Alike b b' c d)
    (hheader : SameHeader c.currentHeader d.currentHeader) :
    Alike b b' (c.handleContinuation p) (d.handleContinuation p) := by
  refine rel_ite (by rw [h.fragmented]) (fun _ => h.failWithClose 1002 _) fun hfragmented => ?_
  obtain ⟨hbuffer, hop, hcompressed⟩ := h.message (by simpa using hfragmented)
  have hwhole : c.messageBuffer ++ c.payloadBuffer = d.messageBuffer ++ d.payloadBuffer := by
    rw [hbuffer, h.payloadBuffer]
  have happended : Alike b b' c.appended d.appended :=
    { h with message := fun _ => ⟨hwhole, hop, hcompressed⟩ }
  exact rel_ite (by rw [hheader.fin])
    (fun _ => (happended.deliverMessage hwhole hop hcompressed).1.resetFragmentState)
    fun _ => happended

lemma handleData (h : Alike b b' c d) (hheader : SameHeader c.currentHeader d.currentHeader) :
    Alike b b' (c.handleData p) (d.handleData p) := by
  refine rel_ite (by rw [h.fragmented]) (fun _ => h.failWithClose 1002 _) fun _ => ?_
  refine rel_ite (by rw [hheader.fin]) (fun _ => ?_) fun _ => ?_
  · exact { h with
      fragmented := rfl
      message := fun _ => ⟨h.payloadBuffer, hheader.op, hheader.rsv1⟩ }
  · obtain ⟨hdelivered, hpayload⟩ :=
      h.deliverMessage (p := p) h.payloadBuffer hheader.op hheader.rsv1
    exact hdelivered.setPayload hpayload

lemma handleFrame (h : Alike b b' c d) (hheader : SameHeader c.currentHeader d.currentHeader) :
    Alike b b' (c.handleFrame p) (d.handleFrame p) := by
  have hop : ∀ op : UInt8,
      (c.currentHeader.op == op) = true ↔ (d.currentHeader.op == op) = true := by
    intro op
    rw [hheader.op]
  refine rel_ite (hop _) (fun _ => h.handleCloseFrame) fun _ => ?_
  refine rel_ite (hop _) (fun _ => h.handlePingFrame) fun _ => ?_
  refine rel_ite (hop _) (fun _ => h) fun _ => ?_
  refine rel_ite (hop _) (fun _ => h.handleContinuation hheader) fun _ => ?_
  exact rel_ite (by rw [hheader.op]) (fun _ => h.handleData hheader)
    fun _ => h.failWithClose 1002 _

/-! Reading. -/

lemma headerFailure (h : Alike b b' c d) (hheader : SameHeader c.currentHeader d.currentHeader) :
    c.headerFailure p = d.headerFailure p := by
  simp only [Connection.headerFailure, h.role, h.deflate, hheader.op, hheader.rsv1, hheader.rsv2,
    hheader.rsv3, hheader.mask]

lemma readExact (h : Alike b b' c d) (size : ℕ) :
    (c.readExact size = none ∧ d.readExact size = none) ∨
      ∃ data input, c.readExact size = some (data, { c with input := input }) ∧
        d.readExact size = some (data, { d with input := input }) := by
  by_cases hsize : size ≤ c.input.length
  · refine .inr ⟨c.input.take size, c.input.drop size, ?_, ?_⟩
    · rw [Connection.readExact, if_pos hsize]
    · rw [h.input] at hsize ⊢
      rw [Connection.readExact, if_pos hsize]
  · refine .inl ⟨?_, ?_⟩
    · rw [Connection.readExact, if_neg hsize]
    · rw [h.input] at hsize
      rw [Connection.readExact, if_neg hsize]

lemma readPayload (h : Alike b b' c d) (hheader : SameHeader c.currentHeader d.currentHeader) :
    Both b b' (c.readPayload p) (d.readPayload p) := by
  refine rel_ite (by rw [hheader.payloadLen]) (fun _ => ⟨h.handleFrame hheader, rfl⟩) fun _ => ?_
  refine rel_ite (by rw [hheader.payloadLen]) (fun _ => ?_) fun _ => ?_
  · exact ⟨{ h with terminated := rfl }, rfl⟩
  · rw [← hheader.payloadLen]
    rcases h.readExact (c.currentHeader.payloadLen % 2 ^ p.bits) with ⟨hc, hd⟩ |
      ⟨data, input, hc, hd⟩
    · rw [hc, hd]
      exact ⟨(h.setInput []).setPayload (by rw [h.input, h.payloadBuffer]), rfl⟩
    · have hdata : (if c.currentHeader.mask then
          applyMask p.host c.currentHeader.maskingKey data else data) =
          if d.currentHeader.mask then applyMask p.host d.currentHeader.maskingKey data
          else data := by
        cases hmask : c.currentHeader.mask with
        | false =>
            rw [← hheader.mask, hmask]
            rfl
        | true => rw [← hheader.mask, hmask, hheader.maskingKey hmask]
      rw [hc, hd]
      exact ⟨((h.setInput input).setPayload hdata).handleFrame hheader, rfl⟩

lemma parseRest (h : Alike b b' c d) (hheader : SameHeader c.currentHeader d.currentHeader) :
    Both b b' (c.parseRest p) (d.parseRest p) := by
  unfold Connection.parseRest Connection.validateFrameHeader
  rw [h.headerFailure hheader]
  cases d.headerFailure p with
  | none => exact h.readPayload hheader
  | some reason => exact ⟨h.failWithClose 1002 reason, rfl⟩

lemma readLengthOf (h : Alike b b' c d) (hfields : SameFields c.currentHeader d.currentHeader)
    (size : ℕ) :
    Each b b' SameFields
      ((c.readExact size).map fun (bytes, c) =>
        { c with currentHeader := { c.currentHeader with payloadLen := Words.beFold bytes } })
      ((d.readExact size).map fun (bytes, d) =>
        { d with currentHeader := { d.currentHeader with payloadLen := Words.beFold bytes } }) := by
  rcases h.readExact size with ⟨hc, hd⟩ | ⟨data, input, hc, hd⟩
  · rw [hc, hd]
    exact .inl ⟨rfl, rfl⟩
  · rw [hc, hd]
    exact .inr ⟨_, _, rfl, rfl, (h.setInput input).setHeader _ _, ⟨hfields.fin, hfields.rsv1,
      hfields.rsv2, hfields.rsv3, hfields.op, hfields.mask, rfl⟩⟩

lemma readLength (h : Alike b b' c d) (hfields : SameFields c.currentHeader d.currentHeader) :
    Each b b' SameFields c.readLength d.readLength := by
  refine rel_ite (by rw [hfields.payloadLen]) (fun _ => h.readLengthOf hfields 2) fun _ => ?_
  exact rel_ite (by rw [hfields.payloadLen]) (fun _ => h.readLengthOf hfields 8)
    fun _ => .inr ⟨c, d, rfl, rfl, h, hfields⟩

lemma readKey (h : Alike b b' c d) (hfields : SameFields c.currentHeader d.currentHeader) :
    Each b b' SameHeader c.readKey d.readKey := by
  refine rel_ite (by rw [hfields.mask]) (fun _ => ?_) fun hmask => ?_
  · rcases h.readExact 4 with ⟨hc, hd⟩ | ⟨data, input, hc, hd⟩
    · rw [hc, hd]
      exact .inl ⟨rfl, rfl⟩
    · rw [hc, hd]
      rcases data with _ | ⟨k0, _ | ⟨k1, _ | ⟨k2, _ | ⟨k3, _ | ⟨k4, more⟩⟩⟩⟩⟩
      · exact .inl ⟨rfl, rfl⟩
      · exact .inl ⟨rfl, rfl⟩
      · exact .inl ⟨rfl, rfl⟩
      · exact .inl ⟨rfl, rfl⟩
      · exact .inr ⟨_, _, rfl, rfl, (h.setInput input).setHeader _ _, ⟨⟨hfields.fin, hfields.rsv1,
          hfields.rsv2, hfields.rsv3, hfields.op, hfields.mask, hfields.payloadLen⟩, fun _ => rfl⟩⟩
      · exact .inl ⟨rfl, rfl⟩
  · exact .inr ⟨c, d, rfl, rfl, h, ⟨hfields, fun hmasked => absurd hmasked hmask⟩⟩

/-- `parse_header` behind its first two bytes. -/
lemma parseBehind (h : Alike b b' c d) (hfields : SameFields c.currentHeader d.currentHeader) :
    Both b b'
      (match c.readLength with
        | none => ({ c with input := [] }, true)
        | some c =>
            match c.readKey with
            | none => ({ c with input := [] }, true)
            | some c => c.parseRest p)
      (match d.readLength with
        | none => ({ d with input := [] }, true)
        | some d =>
            match d.readKey with
            | none => ({ d with input := [] }, true)
            | some d => d.parseRest p) := by
  rcases h.readLength hfields with ⟨hc, hd⟩ | ⟨c₁, d₁, hc, hd, h₁, hfields₁⟩
  · rw [hc, hd]
    exact ⟨h.setInput [], rfl⟩
  · rw [hc, hd]
    rcases h₁.readKey hfields₁ with ⟨hc₁, hd₁⟩ | ⟨c₂, d₂, hc₁, hd₁, h₂, hheader⟩
    · simp only [hc₁, hd₁]
      exact ⟨h₁.setInput [], rfl⟩
    · simp only [hc₁, hd₁]
      exact h₂.parseRest hheader

lemma parseHeader (h : Alike b b' c d) (first second : UInt8) :
    Both b b' (c.parseHeader p first second) (d.parseHeader p first second) :=
  parseBehind (h.setHeader _ _) ⟨rfl, rfl, rfl, rfl, rfl, rfl, rfl⟩

/-- The end of `read_one_frame`. -/
lemma finish {r s : Connection × Bool} (h : Both b b' r s) :
    Alike b b'
      (match r with
        | (c, true) => ({ c.emitError .errorCode with isOpen := false }, false)
        | (c, false) => (c, c.isOpen && !c.terminated)).1
      (match s with
        | (d, true) => ({ d.emitError .errorCode with isOpen := false }, false)
        | (d, false) => (d, d.isOpen && !d.terminated)).1 := by
  obtain ⟨c, broken⟩ := r
  obtain ⟨d, broken'⟩ := s
  obtain ⟨hparsed, hbroken⟩ := h
  obtain rfl : broken = broken' := hbroken
  cases broken with
  | true => exact (hparsed.emit _).clearOpen
  | false => exact hparsed

lemma readOneFrame (h : Alike b b' c d) :
    Alike b b' (c.readOneFrame p).1 (d.readOneFrame p).1 := by
  have hlost := ((h.setInput []).emit (.onError .errorCode)).clearOpen
  refine rel_ite (R := fun r s => Alike b b' (Prod.fst r) (Prod.fst s)) (by rw [h.isOpen])
    (fun _ => h) fun _ => ?_
  rcases h.readExact 2 with ⟨hc, hd⟩ | ⟨data, input, hc, hd⟩
  · rw [hc, hd]
    exact hlost
  · rw [hc, hd]
    rcases data with _ | ⟨first, _ | ⟨second, _ | ⟨third, more⟩⟩⟩
    · exact hlost
    · exact hlost
    · exact finish ((h.setInput input).parseHeader first second)
    · exact hlost

lemma readBreaks (h : Alike b b' c d) : Client.readBreaks p c = Client.readBreaks p d := by
  unfold Client.readBreaks
  rcases h.readExact 2 with ⟨hc, hd⟩ | ⟨data, input, hc, hd⟩
  · rw [hc, hd]
  · rw [hc, hd]
    rcases data with _ | ⟨first, _ | ⟨second, _ | ⟨third, more⟩⟩⟩
    · rfl
    · rfl
    · exact ((h.setInput input).parseHeader first second).2
    · rfl

lemma sendOutbound (h : Alike b b' c d) (hout : c.outboundFrame = d.outboundFrame) :
    Both b b' (c.sendOutbound p) (d.sendOutbound p) := by
  refine rel_ite (by rw [h.isOpen, h.isClosing]) (fun _ => ⟨h, rfl⟩) fun _ => ?_
  obtain ⟨hwritten, hresult⟩ := h.write (p := p) hout
  generalize c.write p = r at hwritten hresult ⊢
  generalize d.write p = s at hwritten hresult ⊢
  obtain ⟨c', ok⟩ := r
  obtain ⟨d', ok'⟩ := s
  obtain rfl : ok = ok' := hresult
  cases ok with
  | true => exact ⟨hwritten, rfl⟩
  | false => exact ⟨hwritten, rfl⟩

lemma sendDataFrame (h : Alike b b' c d) (op : Opcode) (data : List UInt8) (fin : Bool) :
    Both b b' (c.sendDataFrame p op data fin) (d.sendDataFrame p op data fin) := by
  refine rel_ite (by rw [h.isOpen]) (fun _ => ⟨h, rfl⟩) fun _ => ?_
  have hsame : Job.compressed ⟨p, d.role, d.permessageDeflate⟩ op data fin =
      Job.compressed ⟨p, c.role, c.permessageDeflate⟩ op data fin := by
    rw [h.role, h.deflate]
  rw [hsame]
  cases Job.compressed ⟨p, c.role, c.permessageDeflate⟩ op data fin with
  | none => exact ⟨h, rfl⟩
  | some r =>
      refine sendOutbound (h.setOutbound _ _) ?_
      rw [buildInto_eq, buildInto_eq, h.outboundMask, h.writes]

lemma close (h : Alike b b' c d) (code : UInt16) (reason : List UInt8) :
    Alike b b' (c.close p code reason) (d.close p code reason) := by
  refine rel_ite (by rw [h.isOpen, h.isClosing]) (fun _ => h) fun _ => ?_
  exact ((h.setClosing.writeClose _ _).setSocket false).clearOpen.emit _

end Alike

/-! ## Clients that behave alike -/

/-- Two clients whose connections behave alike, and whose own members are the same. -/
structure Twins (b b' : Mark) (c d : Client) : Prop where
  conn : Alike b b' c.conn d.conn
  isOpen : c.isOpen = d.isOpen
  isClosing : c.isClosing = d.isClosing
  reader : c.reader = d.reader

/-- What a connection has done so far. -/
def markOf (c : Connection) : Mark := ⟨c.events, c.wire⟩

lemma Alike.mark {b b' : Mark} {c d : Connection} (h : Alike b b' c d) :
    Alike (markOf c) (markOf d) c d :=
  { h with
    events := ⟨[], (List.append_nil _).symm, (List.append_nil _).symm⟩
    wire := ⟨[], (List.append_nil _).symm, (List.append_nil _).symm⟩ }

namespace Twins

variable {p : Platform} {b b' : Mark} {c d : Client}

lemma connect (h : Twins b b' c d) (deflate : Bool) :
    Twins b b' (c.connect p deflate) (d.connect p deflate) := by
  refine ⟨{ h.conn with deflate := ?_, isOpen := rfl, socketOpen := rfl, input := rfl }, rfl,
    h.isClosing, ?_⟩
  · show (p.deflate && (c.conn.permessageDeflate || deflate)) =
      (p.deflate && (d.conn.permessageDeflate || deflate))
    rw [h.conn.deflate]
  · show (if c.reader = .absent then Reader.looping else c.reader) =
      if d.reader = .absent then .looping else d.reader
    rw [h.reader]

lemma close (h : Twins b b' c d) (code : UInt16) (reason : List UInt8) (onReader : Bool) :
    Twins b b' (c.close p code reason onReader) (d.close p code reason onReader) := by
  refine rel_ite (by rw [h.isOpen, h.isClosing]) (fun _ => h) fun _ => ?_
  refine ⟨h.conn.close code reason, rfl, rfl, ?_⟩
  simp only [h.conn.isOpen, h.conn.isClosing, h.reader]

lemma read (h : Twins b b' c d) : Twins b b' (c.read p) (d.read p) := by
  unfold Client.read
  rw [← h.reader]
  cases hreader : c.reader with
  | looping =>
      refine rel_ite (by rw [h.conn.isOpen, h.conn.isClosing]) (fun _ => ?_) fun _ => ?_
      · exact ⟨h.conn.readOneFrame, h.isOpen, h.isClosing, by rw [h.conn.readBreaks]⟩
      · exact ⟨h.conn, h.isOpen, h.isClosing, rfl⟩
  | absent => exact h
  | ended => exact h

lemma sent (h : Twins b b' c d) {r s : Connection × Option SendError} (hrs : Both b b' r s) :
    Twins b b' (c.sent r).1 (d.sent s).1 ∧ (c.sent r).2 = (d.sent s).2 :=
  ⟨⟨hrs.1, h.isOpen, h.isClosing, h.reader⟩, hrs.2⟩

/-- **One move** of two clients that behave alike. -/
lemma exec (h : Twins b b' c d) (m : Move) :
    Twins b b' (c.exec p m).1 (d.exec p m).1 ∧ (c.exec p m).2 = (d.exec p m).2 := by
  refine rel_ite (R := fun r s => Twins b b' (Prod.fst r) (Prod.fst s) ∧ Prod.snd r = Prod.snd s)
    (by rw [h.conn.terminated]) (fun _ => ⟨h, rfl⟩) fun _ => ?_
  cases m with
  | connect deflate => exact ⟨h.connect deflate, rfl⟩
  | connectFailed dialled =>
      exact ⟨⟨(h.conn.setInput []).setSocket dialled, h.isOpen, h.isClosing, h.reader⟩, rfl⟩
  | sendText text fin => exact h.sent (h.conn.sendDataFrame .text text fin)
  | sendBinary data fin => exact h.sent (h.conn.sendDataFrame .binary data fin)
  | sendContinuation data fin => exact h.sent (h.conn.sendDataFrame .continuation data fin)
  | close code reason onReader => exact ⟨h.close code reason onReader, rfl⟩
  | arrive bytes =>
      have hconn : Alike b b' { c.conn with input := c.conn.input ++ bytes }
          { d.conn with input := d.conn.input ++ bytes } :=
        { h.conn with input := congrArg (· ++ bytes) h.conn.input }
      exact ⟨⟨hconn, h.isOpen, h.isClosing, h.reader⟩, rfl⟩
  | read => exact ⟨h.read, rfl⟩

lemma seen (h : Twins b b' c d) (m : Move) : c.seen p m = d.seen p m := by
  have hmark : Twins (markOf c.conn) (markOf d.conn) c d :=
    ⟨h.conn.mark, h.isOpen, h.isClosing, h.reader⟩
  obtain ⟨hnext, hresult⟩ := hmark.exec (p := p) m
  obtain ⟨es, hc, hd⟩ := hnext.conn.events
  obtain ⟨ws, hc', hd'⟩ := hnext.conn.wire
  simp only [Client.seen, hc, hd, hc', hd', markOf, List.drop_left, hresult, hnext.isOpen]

/-- **Clients that behave alike show the same.** -/
theorem trace (h : Twins b b' c d) (ms : List Move) : c.trace p ms = d.trace p ms := by
  induction ms generalizing c d with
  | nil => rfl
  | cons m ms ih =>
      rw [Client.trace, Client.trace, h.seen, ih (h.exec m).1]

end Twins

/-! ## What tells them apart -/

/-- An empty binary frame, with the bit of a compressed message or without. -/
def emptyBinary (rsv1 : Bool) : WireFrame := .emitted true rsv1 .binary none [] (by decide)

section Events

open Connection

variable {p : Platform} {c : Connection}

lemma write_events : (c.write p).1.events = c.events := by
  unfold Connection.write
  split <;> rfl

lemma failWithClose_events (code : UInt16) (reason : String) :
    (c.failWithClose p code reason).events =
      c.events ++ [.onError (.reason reason), .onClose code (strBytes reason)] := by
  unfold Connection.failWithClose
  simp only [emitClose]
  split
  · rw [write_events]
    simp [buildClose, emitError]
  · simp [emitError]

lemma handleData_probe {rsv1 : Bool} (hfragmented : c.fragmented = false) :
    ((c.withFrame (emptyBinary rsv1) []).handleData p).events =
      ((c.withFrame (emptyBinary rsv1) []).deliverMessage p c.payloadBuffer Opcode.binary.toU8
        rsv1).1.events := by
  have hstill : (c.withFrame (emptyBinary rsv1) []).fragmented = false := hfragmented
  have hfin : (c.withFrame (emptyBinary rsv1) []).currentHeader.fin = true := rfl
  rw [handleData, if_neg (by simp [hstill]), if_neg (by simp [hfin])]
  rfl

lemma deliverPlain_events (payload : List UInt8) :
    (c.deliverPlain p payload Opcode.binary.toU8).events =
      c.events ++ [.onMessage payload Opcode.binary.toU8] := by
  rw [deliverPlain, if_neg (by simp [Opcode.toU8])]

section Probe

variable {rsv1 : Bool} (hopen : c.isOpen = true) (hinput : c.input = (emptyBinary rsv1).encode)
  (hrole : c.role = .client)

include hopen hinput hrole

lemma readOneFrame_probe (hok : headerOk .client (p.deflate && c.permessageDeflate)
      (emptyBinary rsv1) = true) :
    (c.readOneFrame p).1 = (c.withFrame (emptyBinary rsv1) []).handleData p := by
  have hin : c.input = (emptyBinary rsv1).encode ++ [] := by rw [hinput, List.append_nil]
  have hgood : headerFailure p (c.withHeader (emptyBinary rsv1)
      (maskedWith (emptyBinary rsv1).key (emptyBinary rsv1).payload ++ [])) = none := by
    rw [headerFailure_eq_none_iff, hrole]
    exact hok
  rw [readOneFrame_of_valid p hopen hin (Nat.two_pow_pos _) hgood]
  have hop : (c.withFrame (emptyBinary rsv1) []).currentHeader.op = Opcode.binary.toU8 := rfl
  exact handleFrame_of_opcode p hop

lemma events_of_fragmented (hfragmented : c.fragmented = true) (hrsv1 : rsv1 = false) :
    (c.readOneFrame p).1.events = c.events ++
      [.onError (.reason "New data frame before fragmented message completed"),
        .onClose 1002 (strBytes "New data frame before fragmented message completed")] := by
  subst hrsv1
  rw [readOneFrame_probe hopen hinput hrole (by cases p.deflate && c.permessageDeflate <;> decide)]
  have hstill : (c.withFrame (emptyBinary false) []).fragmented = true := hfragmented
  rw [handleData, if_pos hstill]
  exact failWithClose_events 1002 _

lemma events_of_whole (hfragmented : c.fragmented = false) (hrsv1 : rsv1 = false) :
    (c.readOneFrame p).1.events = c.events ++ [.onMessage c.payloadBuffer Opcode.binary.toU8] := by
  subst hrsv1
  rw [readOneFrame_probe hopen hinput hrole (by cases p.deflate && c.permessageDeflate <;> decide)]
  rw [handleData_probe hfragmented, deliverMessage_plain, deliverPlain_events]
  rfl

omit hrole in
lemma events_of_unnegotiated (hdeflate : p.deflate = true) (hnot : c.permessageDeflate = false)
    (hrsv1 : rsv1 = true) :
    (c.readOneFrame p).1.events = c.events ++
      [.onError (.reason "RSV1 set without permessage-deflate"),
        .onClose 1002 (strBytes "RSV1 set without permessage-deflate")] := by
  subst hrsv1
  have hin : c.input = (emptyBinary true).encode ++ [] := by rw [hinput, List.append_nil]
  have hbad : headerFailure p (c.withHeader (emptyBinary true)
      (maskedWith (emptyBinary true).key (emptyBinary true).payload ++ [])) =
      some "RSV1 set without permessage-deflate" := by
    rw [headerFailure, if_pos]
    simp [withHeader, headerOf, emptyBinary, WireFrame.emitted, hdeflate, hnot]
  rw [readOneFrame_of_invalid p hopen hin hbad]
  exact failWithClose_events 1002 _

lemma events_of_negotiated (hdeflate : p.deflate = true) (hpermessage : c.permessageDeflate = true)
    (hfragmented : c.fragmented = false) (hrsv1 : rsv1 = true) :
    ∃ e more, (c.readOneFrame p).1.events = c.events ++ e :: more ∧
      e ≠ .onError (.reason "RSV1 set without permessage-deflate") := by
  subst hrsv1
  rw [readOneFrame_probe hopen hinput hrole (by rw [hdeflate, hpermessage]; decide)]
  have hthere : (c.withFrame (emptyBinary true) []).permessageDeflate = true := hpermessage
  rw [handleData_probe hfragmented, deliverMessage_compressed p hdeflate hthere]
  cases decompressMessage p.zlib c.payloadBuffer with
  | none =>
      refine ⟨_, _, failWithClose_events 1002 _, ?_⟩
      simp
  | some plain =>
      refine ⟨_, [], deliverPlain_events (p := p) plain, ?_⟩
      simp

end Probe

end Events

/-- The frame arrives, and the reader has its turn. -/
def probe (rsv1 : Bool) : List Move := [.arrive (emptyBinary rsv1).encode, .read]

/-- The connection when the frame has arrived. -/
def fed (c : Client) (rsv1 : Bool) : Connection :=
  { c.conn with input := c.conn.input ++ (emptyBinary rsv1).encode }

/-- The callbacks of the reader's turn. -/
def told (p : Platform) (c : Client) (rsv1 : Bool) : List Event :=
  (({ c with conn := fed c rsv1 } : Client).read p).conn.events.drop c.conn.events.length

section Told

variable {p : Platform} {c d : Client} {rsv1 : Bool}

lemma trace_probe (p : Platform) (rsv1 : Bool) (hc : c.conn.terminated = false) :
    ∃ first second, c.trace p (probe rsv1) = [first, second] ∧ second.events = told p c rsv1 := by
  refine ⟨_, _, rfl, ?_⟩
  have hfed : (c.exec p (.arrive (emptyBinary rsv1).encode)).1 = { c with conn := fed c rsv1 } := by
    rw [Client.exec, if_neg (by simp [hc])]
    rfl
  rw [hfed, Client.seen, Client.exec, if_neg (by simp [fed, hc])]
  rfl

lemma told_eq_of_trace (hc : c.conn.terminated = false) (hd : d.conn.terminated = false)
    (h : c.trace p (probe rsv1) = d.trace p (probe rsv1)) : told p c rsv1 = told p d rsv1 := by
  obtain ⟨first, second, htrace, hevents⟩ := trace_probe p rsv1 hc
  obtain ⟨first', second', htrace', hevents'⟩ := trace_probe p rsv1 hd
  rw [htrace, htrace', List.cons.injEq, List.cons.injEq] at h
  rw [← hevents, ← hevents', h.2.1]

/-- A client without a reader in `read_loop`, or with a connection that is closing, reads
nothing. -/
lemma told_of_idle (h : c.reader = .ended ∨ c.conn.isClosing = true) : told p c rsv1 = [] := by
  have hsame : (({ c with conn := fed c rsv1 } : Client).read p).conn = fed c rsv1 := by
    unfold Client.read
    cases hreader : c.reader with
    | looping =>
        rw [hreader] at h
        have hclosing : (fed c rsv1).isClosing = true := by simpa [fed] using h
        simp [hclosing]
    | absent => simp
    | ended => simp
  rw [told, hsame]
  simp [fed]

lemma told_of_reading (hreader : c.reader = .looping) (hopen : c.conn.isOpen = true)
    (hclosing : c.conn.isClosing = false) :
    told p c rsv1 = ((fed c rsv1).readOneFrame p).1.events.drop c.conn.events.length := by
  have htest : ((fed c rsv1).isOpen && !(fed c rsv1).isClosing) = true := by
    simp [fed, hopen, hclosing]
  rw [told, Client.read, hreader]
  simp only [htest, if_true]

end Told

/-! ## Connecting again -/

section Reconnect

variable {p : Platform} {c : Client} {deflate : Bool}

lemma reader_connect (h : c.reader ≠ .ended) : (c.connect p deflate).reader = .looping := by
  show (if c.reader = .absent then Reader.looping else c.reader) = .looping
  cases hcase : c.reader with
  | absent => rfl
  | looping => rfl
  | ended => exact absurd hcase h

/-- A clean client and a new one behave alike once they are connected. -/
lemma Client.Clean.twins (h : c.Clean p deflate) (hrole : c.conn.role = .client)
    (halive : c.conn.terminated = false) :
    Twins (markOf c.conn) (markOf (Client.new c.conn.writes).conn) (c.connect p deflate)
      ((Client.new c.conn.writes).connect p deflate) := by
  refine ⟨⟨hrole, ?_, rfl, h.closing, h.payloadBuffer, h.fragmented, ?_, rfl, rfl, rfl, halive,
    ⟨[], ?_, ?_⟩, ⟨[], ?_, ?_⟩⟩, rfl, h.isClosing, ?_⟩
  · show (p.deflate && (c.conn.permessageDeflate || deflate)) = (p.deflate && (false || deflate))
    cases hdeflate : p.deflate with
    | false => rfl
    | true =>
        cases hold : c.conn.permessageDeflate with
        | false => rfl
        | true =>
            rw [h.deflate hdeflate hold]
            rfl
  · intro hfragmented
    exact absurd hfragmented (by simp [Client.connect, h.fragmented])
  · exact (List.append_nil _).symm
  · exact (List.append_nil _).symm
  · exact (List.append_nil _).symm
  · exact (List.append_nil _).symm
  · exact reader_connect h.reader

/-- What the probe shows of a connected client whose reader reads. -/
lemma told_connect (hrole : c.conn.role = .client) (hreader : c.reader ≠ .ended)
    (hclosing : c.conn.isClosing = false) :
    told p (c.connect p deflate) false =
      if c.conn.fragmented then
        [.onError (.reason "New data frame before fragmented message completed"),
          .onClose 1002 (strBytes "New data frame before fragmented message completed")]
      else [.onMessage c.conn.payloadBuffer Opcode.binary.toU8] := by
  rw [told_of_reading (reader_connect hreader) rfl hclosing]
  cases hfragmented : c.conn.fragmented with
  | true =>
      rw [events_of_fragmented (c := fed (c.connect p deflate) false) rfl rfl hrole hfragmented rfl]
      simp [fed]
  | false =>
      rw [events_of_whole (c := fed (c.connect p deflate) false) rfl rfl hrole hfragmented rfl]
      simp [fed, Client.connect]

/-- A second `close` of a client does nothing. -/
lemma isClosing_of_trace (halive : c.conn.terminated = false)
    (h : (c.connect p deflate).trace p [.close 1000 [] false] =
      ((Client.new c.conn.writes).connect p deflate).trace p [.close 1000 [] false]) :
    c.isClosing = false := by
  refine Bool.eq_false_iff.mpr fun htrue => ?_
  have hisOpen := congrArg (fun l => (l.map Seen.isOpen).head?) h
  have hignored : ((c.connect p deflate).exec p (.close 1000 [] false)).1.isOpen = true := by
    have hstill : (c.connect p deflate).conn.terminated = false := halive
    have hclosing : (c.connect p deflate).isClosing = true := htrue
    rw [Client.exec, if_neg (by simp [hstill])]
    simp only [Client.close, hclosing, Bool.or_true, if_true]
    rfl
  have hclosed : (((Client.new c.conn.writes).connect p deflate).exec p
      (.close 1000 [] false)).1.isOpen = false := rfl
  simp [Client.trace, Client.seen, hignored, hclosed] at hisOpen

/-- A client that has negotiated permessage-deflate before takes a compressed frame. -/
lemma told_ne_of_deflate (hrole : c.conn.role = .client) (hreader : c.reader ≠ .ended)
    (hclosing : c.conn.isClosing = false) (hfragmented : c.conn.fragmented = false)
    (hdeflate : p.deflate = true) (hold : c.conn.permessageDeflate = true) :
    told p (c.connect p false) true ≠
      told p ((Client.new c.conn.writes).connect p false) true := by
  have hthere : (fed (c.connect p false) true).permessageDeflate = true := by
    simp [fed, Client.connect, hdeflate, hold]
  have hnot :
      (fed ((Client.new c.conn.writes).connect p false) true).permessageDeflate = false := by
    simp [fed, Client.connect, Client.new, Connection.new]
  obtain ⟨e, more, hevents, hne⟩ :=
    events_of_negotiated (c := fed (c.connect p false) true) rfl rfl hrole hdeflate hthere
      hfragmented rfl
  rw [told_of_reading (reader_connect hreader) rfl hclosing, hevents,
    told_of_reading (reader_connect (by simp [Client.new])) rfl rfl,
    events_of_unnegotiated (c := fed ((Client.new c.conn.writes).connect p false) true) rfl rfl
      hdeflate hnot rfl]
  simp [fed, hne]

end Reconnect

/-- **When a client that connects again is as good as new.** -/
theorem reconnect_fresh_iff (p : Platform) (c : Client) (deflate : Bool)
    (hrole : c.conn.role = .client) (halive : c.conn.terminated = false)
    (_ : c.conn.isOpen = false) :
    (∀ ms, (c.connect p deflate).trace p ms =
      ((Client.new c.conn.writes).connect p deflate).trace p ms) ↔ c.Clean p deflate := by
  constructor
  · intro hsame
    -- a new client, with one empty message sent to it, tells of that message
    have hnew : told p ((Client.new c.conn.writes).connect p deflate) false =
        [.onMessage [] Opcode.binary.toU8] := told_connect rfl (by simp [Client.new]) rfl
    have htold : told p (c.connect p deflate) false = [.onMessage [] Opcode.binary.toU8] := by
      rw [← hnew]
      exact told_eq_of_trace (c := c.connect p deflate) halive rfl (hsame _)
    -- so the old one must do the same, which each leftover would prevent
    have hreader : c.reader ≠ .ended := by
      intro hended
      have hidle : (c.connect p deflate).reader = .ended := by
        simp [Client.connect, hended]
      rw [told_of_idle (.inl hidle)] at htold
      cases htold
    have hclosing : c.conn.isClosing = false := by
      refine Bool.eq_false_iff.mpr fun htrue => ?_
      have hstill : (c.connect p deflate).conn.isClosing = true := htrue
      rw [told_of_idle (.inr hstill)] at htold
      cases htold
    rw [told_connect hrole hreader hclosing] at htold
    have hfragmented : c.conn.fragmented = false := by
      refine Bool.eq_false_iff.mpr fun htrue => ?_
      rw [htrue] at htold
      simp at htold
    have hpayload : c.conn.payloadBuffer = [] := by
      rw [hfragmented] at htold
      simpa using htold
    -- the client's flag shows when `close` is ignored, that of the extension in a frame with RSV1
    refine ⟨hreader, ?_, hclosing, hfragmented, hpayload, ?_⟩
    · exact isClosing_of_trace halive (hsame _)
    · intro hdeflate hold
      refine Bool.not_eq_false _ |>.mp fun hnot => ?_
      subst hnot
      exact told_ne_of_deflate hrole hreader hclosing hfragmented hdeflate hold
        (told_eq_of_trace (c := c.connect p false) halive rfl (hsame _))
  · intro hclean ms
    exact (hclean.twins hrole halive).trace ms

/-- The peer ends the session with an empty CLOSE frame, and its handler is running. -/
def inOnClose : List Move := [.connect false, .arrive [0x88, 0x00], .read]

/-- A client that is connected again by its handler of `on_close` is as good as new. -/
theorem reconnect_fresh_inOnClose :
    ((Client.new 0).after plainPlatform inOnClose).conn.isOpen = false ∧
      ∀ ms, (((Client.new 0).after plainPlatform inOnClose).connect plainPlatform false).trace
          plainPlatform ms =
        ((Client.new ((Client.new 0).after plainPlatform inOnClose).conn.writes).connect
          plainPlatform false).trace plainPlatform ms := by
  have hclosed : ((Client.new 0).after plainPlatform inOnClose).conn.isOpen = false := by
    decide +kernel
  refine ⟨hclosed, (reconnect_fresh_iff plainPlatform _ false (by decide +kernel)
    (by decide +kernel) hclosed).mpr ?_⟩
  exact ⟨by decide +kernel, by decide +kernel, by decide +kernel, by decide +kernel,
    by decide +kernel, by decide +kernel⟩

/-- Three ways for a session to end: `close`, a CLOSE frame, and the end of the stream. -/
def endings : List (List Move) :=
  [[.connect false, .close 1000 [] false], inOnClose ++ [.read], [.connect false, .read]]

/-- **Connected again, and deaf.**  A message that a new client delivers is not read. -/
theorem reconnect_not_fresh :
    endings.Forall fun before =>
      ((Client.new 0).after plainPlatform before).conn.isOpen = false ∧
        (((Client.new 0).after plainPlatform before).connect plainPlatform false).trace
            plainPlatform (probe false) ≠
          ((Client.new ((Client.new 0).after plainPlatform before).conn.writes).connect
            plainPlatform false).trace plainPlatform (probe false) := by
  decide +kernel

end Wscpp.Cpp.Reconnect
