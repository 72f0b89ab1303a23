import Wscpp.Link

/-!
# wscpp and ws-rs on a link

Both connections are endpoints in the sense of `Wscpp.Link`, so that whatever holds on a link holds
of each of the four pairings of a client and a server.  They are the connections as they are without
permessage-deflate and on a socket whose writes succeed.
-/

namespace Wscpp

open Words Moves Utf8

open Cpp (Reply)

lemma carries_emitted (role : Role) (q : Piece) (key : Key) (hlen : q.payload.length < 2 ^ 64) :
    Carries role.peer q
      (.emitted q.fin false q.op (keyIf (role == .client) key) q.payload hlen) where
  header := headerOk_emitted hlen (by simp)
  opcode := by simp [WireFrame.opcode, WireFrame.emitted, Opcode.fromU8_toU8]
  fin := rfl
  payload := rfl

/-! ## wscpp -/

namespace Cpp

/-- The frame that a call asks for. -/
def Move.piece : Move → Option Piece
  | sendText text fin => some ⟨.text, fin, text⟩
  | sendBinary data fin => some ⟨.binary, fin, data⟩
  | sendContinuation data fin => some ⟨.continuation, fin, data⟩
  | sendPing data => some ⟨.ping, true, data⟩
  | close code reason =>
      some ⟨.close, true, closeCodeBytes (Connection.closeCode code) ++ reason⟩
  | arrive _ | read => none

/-- The callback reports an error. -/
def Event.isError : Event → Bool
  | onError _ => true
  | _ => false

lemma any_isError_events (replies : List Reply) :
    (replies.flatMap Reply.events).any Event.isError = replies.any Reply.fails := by
  induction replies with
  | nil => rfl
  | cons r replies ih =>
      rw [List.flatMap_cons, List.any_append, ih, List.any_cons]
      cases r <;> rfl

namespace Connection

variable {p : Platform} {role : Role} {c : Connection} {a : Assembly} {buffer : List UInt8}

/-- What a connection shows. -/
structure Shows (role : Role) (c : Connection) (v : View) : Prop where
  inside : match v.inside with
    | none => c.isOpen = false
    | some a => ∃ buffer, c.Serving role a buffer
  wire : c.wire = v.frames.map WireFrame.encode
  input : c.input = v.unread
  messages : c.events.filterMap Event.message? =
    (v.replies.filterMap Reply.message?).map fun m => (m.2, m.1.toU8)
  errors : c.events.any Event.isError = v.replies.any Reply.fails

lemma Shows.isOpen_eq {v : View} (h : c.Shows role v) : c.isOpen = v.inside.isSome := by
  obtain ⟨inside, frames, unread, replies⟩ := v
  have hinside := h.inside
  cases inside with
  | none => exact hinside
  | some a =>
      obtain ⟨buffer, hserving⟩ := hinside
      exact hserving.live.isOpen

lemma Serving.sent (h : c.Serving role a buffer) (frame : List UInt8) :
    (c.sent frame).Serving role a buffer := by
  refine ⟨h.live.congr rfl rfl rfl rfl, h.role_eq, h.deflate, ?_, h.payload, ?_⟩
  · have hold := h.holding
    cases a <;> exact hold
  · simp [Connection.sent, h.writes]

/-- The byte string of the frame that a piece becomes. -/
def pieceBytes (p : Platform) (role : Role) (i : ℕ) (q : Piece) : List UInt8 :=
  encodeParts q.fin false false false q.op.toU8 (.shortest q.payload.length)
    (keyIf (role == .client) (p.keys i)) q.payload

lemma Serving.sendOutbound (hw : ∀ i, p.write i = true) (h : c.Serving role a buffer)
    (frame : List UInt8) :
    Connection.sendOutbound p { c with outboundFrame := frame } = (c.sent frame, none) := by
  rw [Connection.sendOutbound, if_neg (by simp [h.live.isOpen, h.live.isClosing]),
    write_eq hw (by exact h.live.socketOpen)]
  rfl

/-- **A call that sends** writes its frame. -/
lemma Serving.sendDataFrame (hw : ∀ i, p.write i = true) (h : c.Serving role a buffer)
    (op : Opcode) (data : List UInt8) (fin : Bool) :
    (sendDataFrame p c op data fin).1 =
      c.sent (pieceBytes p role c.wire.length ⟨op, fin, data⟩) := by
  have hplain : Job.compressed ⟨p, c.role, c.permessageDeflate⟩ op data fin =
      some (data, false) := by
    rw [Job.compressed, h.deflate]
    simp
  rw [Connection.sendDataFrame, if_neg (by simp [h.live.isOpen]), hplain]
  simp only [buildInto_eq, h.sendOutbound hw]
  simp [pieceBytes, outboundMask, h.role_eq, h.writes]

lemma Serving.sendPing (hw : ∀ i, p.write i = true) (h : c.Serving role a buffer)
    (data : List UInt8) :
    (sendPing p c data).1 = c.sent (pieceBytes p role c.wire.length ⟨.ping, true, data⟩) := by
  rw [Connection.sendPing, if_neg (by simp [h.live.isOpen])]
  simp only [buildInto_eq, h.sendOutbound hw]
  simp [pieceBytes, outboundMask, h.role_eq, h.writes]

lemma Serving.close (hw : ∀ i, p.write i = true) (h : c.Serving role a buffer) (code : UInt16)
    (reason : List UInt8) :
    Connection.close p c code reason = emitClose
      { c.sent (pieceBytes p role c.wire.length
          ⟨.close, true, closeCodeBytes (closeCode code) ++ reason⟩) with
        isClosing := true
        isOpen := false
        socketOpen := false } (closeCode code) reason := by
  rw [Connection.close, if_neg (by simp [h.live.isOpen, h.live.isClosing])]
  simp only [buildClose, buildCloseInto_eq]
  rw [write_eq hw (by exact h.live.socketOpen)]
  simp [Connection.sent, pieceBytes, outboundMask, h.role_eq, h.writes]

lemma pieceBytes_eq (p : Platform) (role : Role) (i : ℕ) {q : Piece}
    (hlen : q.payload.length < 2 ^ 64) : ∃ f : WireFrame, Carries role.peer q f ∧
      pieceBytes p role i q = f.encode :=
  ⟨_, carries_emitted role q (p.keys i) hlen, rfl⟩

lemma Shows.sent {frames : List WireFrame} {unread : List UInt8} {replies : List Reply}
    (h : c.Shows role ⟨some a, frames, unread, replies⟩) {f : WireFrame} {frame : List UInt8}
    (hframe : frame = f.encode) :
    (c.sent frame).Shows role ⟨some a, frames ++ [f], unread, replies⟩ := by
  obtain ⟨buffer, hserving⟩ := h.inside
  refine ⟨⟨buffer, hserving.sent frame⟩, ?_, h.input, h.messages, h.errors⟩
  simp [Connection.sent, h.wire, hframe]

/-- **A call on an open connection.** -/
lemma Shows.call (hw : ∀ i, p.write i = true) {frames : List WireFrame} {unread : List UInt8}
    {replies : List Reply} (h : c.Shows role ⟨some a, frames, unread, replies⟩) {move : Move}
    {q : Piece} (hq : move.piece = some q) (hlen : q.payload.length < 2 ^ 64) :
    ∃ f, Carries role.peer q f ∧ (move.run p c).Shows role
      ⟨if q.op = .close then none else some a, frames ++ [f], unread, replies⟩ := by
  obtain ⟨buffer, hserving⟩ := h.inside
  obtain ⟨f, hf, hbytes⟩ := pieceBytes_eq p role c.wire.length hlen
  refine ⟨f, hf, ?_⟩
  cases move with
  | sendText text fin =>
      obtain rfl := Option.some.inj hq
      rw [Move.run, sendText, hserving.sendDataFrame hw]
      exact h.sent hbytes
  | sendBinary data fin =>
      obtain rfl := Option.some.inj hq
      rw [Move.run, sendBinary, hserving.sendDataFrame hw]
      exact h.sent hbytes
  | sendContinuation data fin =>
      obtain rfl := Option.some.inj hq
      rw [Move.run, sendContinuation, hserving.sendDataFrame hw]
      exact h.sent hbytes
  | sendPing data =>
      obtain rfl := Option.some.inj hq
      rw [Move.run, hserving.sendPing hw]
      exact h.sent hbytes
  | close code reason =>
      -- the CLOSE frame is the last, and the socket is closed behind it
      obtain rfl := Option.some.inj hq
      rw [Move.run, hserving.close hw]
      refine ⟨rfl, ?_, h.input, ?_, ?_⟩
      · rw [hbytes]
        simp [emitClose, Connection.sent, h.wire]
      · simpa [emitClose, Connection.sent, Event.message?, List.filterMap_cons] using h.messages
      · simpa [emitClose, Connection.sent, Event.isError] using h.errors
  | arrive bytes => simp [Move.piece] at hq
  | read => simp [Move.piece] at hq

lemma run_of_closed (hclosed : c.isOpen = false) {move : Move} {q : Piece}
    (hq : move.piece = some q) : move.run p c = c := by
  cases move with
  | arrive bytes => simp [Move.piece] at hq
  | read => simp [Move.piece] at hq
  | _ =>
      simp [Move.run, sendText, sendBinary, sendContinuation, Connection.sendDataFrame,
        Connection.sendPing, Connection.close, hclosed]

/-- **A frame is read.** -/
lemma Shows.read (hw : ∀ i, p.write i = true) {limit : ℕ} (hlimit : limit < 2 ^ (p.bits - 1))
    {frames : List WireFrame} {rest : List UInt8} {replies : List Reply} {f : WireFrame}
    (h : c.Shows role ⟨some a, frames, f.encode ++ rest, replies⟩)
    (hheader : headerOk role false f = true) (hne : f.payload ≠ [])
    (hfits : f.payload.length ≤ limit)
    (hfine : ∀ r ∈ (respond a f.opcode f.fin f.payload).1, r.fails = false) :
    ∃ answer, List.Forall₂ (Carries role.peer)
        ((respond a f.opcode f.fin f.payload).1.bind Reply.piece?).toList answer ∧
      (Move.run p c .read).Shows role ⟨(respond a f.opcode f.fin f.payload).2, frames ++ answer,
        rest, replies ++ (respond a f.opcode f.fin f.payload).1.toList⟩ := by
  obtain ⟨buffer, hserving⟩ := h.inside
  have h63 : limit < 2 ^ 63 :=
    Nat.lt_of_lt_of_le hlimit (Nat.pow_le_pow_right (by omega) (by have := p.bits_le; omega))
  have hanswered := readOneFrame_respond hw hserving hheader hne (by omega) h.input
  have hrun : Move.run p c .read = (readOneFrame p c).1 := by
    rw [Move.run, readTurn, if_pos (by simp [hserving.live.isOpen, hserving.live.isClosing])]
  rw [hrun]
  generalize (readOneFrame p c).1 = c' at hanswered
  obtain ⟨hinput, hevents, hwire, hnext⟩ := hanswered
  have hmessages : c'.events.filterMap Event.message? = ((replies ++
      (respond a f.opcode f.fin f.payload).1.toList).filterMap Reply.message?).map
        fun m => (m.2, m.1.toU8) := by
    rw [hevents, List.filterMap_append, h.messages, filterMap_message?_events, ← List.map_append,
      ← List.filterMap_append]
  have herrors : c'.events.any Event.isError = (replies ++
      (respond a f.opcode f.fin f.payload).1.toList).any Reply.fails := by
    rw [hevents, List.any_append, h.errors, any_isError_events, ← List.any_append]
  -- an answer is one frame
  have hsent : ∀ (op : Opcode) (bs : List UInt8), bs.length < 2 ^ 64 →
      ∃ g, Carries role.peer ⟨op, true, bs⟩ g ∧
        framesBytes p role c.wire.length [(op, bs)] = [g.encode] := by
    intro op bs hlen
    obtain ⟨g, hg, hbytes⟩ := pieceBytes_eq p role c.wire.length (q := ⟨op, true, bs⟩) hlen
    exact ⟨g, hg, by rw [← hbytes]; rfl⟩
  rcases respond_fine hfine with ⟨a', hr⟩ | ⟨a', hr⟩ | ⟨mop, bs, a', hr⟩ | ⟨-, reason, hr⟩ <;>
    rw [hr] at hwire hnext hmessages herrors ⊢
  · refine ⟨[], .nil, ⟨f.payload, hnext⟩, ?_, hinput, hmessages, herrors⟩
    rw [List.map_append, ← h.wire]
    exact hwire
  · obtain ⟨g, hg, hbytes⟩ := hsent .pong f.payload (by omega)
    refine ⟨[g], .cons hg .nil, ⟨f.payload, hnext⟩, ?_, hinput, hmessages, herrors⟩
    rw [List.map_append, ← h.wire]
    exact hwire.trans (congrArg _ hbytes)
  · refine ⟨[], .nil, ⟨f.payload, hnext⟩, ?_, hinput, hmessages, herrors⟩
    rw [List.map_append, ← h.wire]
    exact hwire
  · obtain ⟨g, hg, hbytes⟩ := hsent .close (closeCodeBytes (closeStatus f.payload))
      (by simp [closeCodeBytes])
    refine ⟨[g], .cons hg .nil, hnext, ?_, hinput, hmessages, herrors⟩
    rw [List.map_append, ← h.wire]
    exact hwire.trans (congrArg _ hbytes)

/-- Bytes come. -/
lemma Shows.arrive {v : View} (h : c.Shows role v) (bytes : List UInt8) :
    (Move.run p c (.arrive bytes)).Shows role { v with unread := v.unread ++ bytes } := by
  obtain ⟨inside, frames, unread, replies⟩ := v
  refine ⟨?_, h.wire, congrArg (· ++ bytes) h.input, h.messages, h.errors⟩
  have hinside := h.inside
  cases inside with
  | none => exact hinside
  | some a =>
      obtain ⟨buffer, hserving⟩ := hinside
      refine ⟨buffer, hserving.live.congr rfl rfl rfl rfl, hserving.role_eq, hserving.deflate, ?_,
        hserving.payload, hserving.writes⟩
      have hold := hserving.holding
      cases a <;> exact hold

lemma readTurn_of_closed (hclosed : c.isOpen = false) : readTurn p c = c := by
  rw [readTurn, if_neg (by simp [hclosed])]

end Connection

/-- **A wscpp connection as an endpoint**, without an extension and with writes that succeed. -/
def endpoint (p : Platform) (hw : ∀ i, p.write i = true) (role : Role) {limit : ℕ}
    (hlimit : limit < 2 ^ (p.bits - 1)) : Wscpp.Endpoint role limit where
  State := Connection
  Call := { move : Move // move.piece.isSome = true }
  piece q := q.1.piece.get q.2
  start := .new role false []
  call c q := q.1.run p c
  arrive c chunk := Move.run p c (.arrive chunk.bytes)
  read c := Move.run p c .read
  isOpen c := c.isOpen
  wire c := c.wire.flatten
  unread c := c.input
  heard c := c.events.filterMap Event.message?
  failed c := c.events.any Event.isError
  Shows c v := c.Shows role v
  start_shows := ⟨⟨[], ⟨rfl, rfl, rfl, rfl⟩, rfl, rfl, rfl, rfl, rfl⟩, rfl, rfl, rfl, rfl⟩
  call_shows q h hfits := by
    refine h.call hw (Option.some_get q.2).symm ?_
    have h64 : 2 ^ (p.bits - 1) ≤ 2 ^ 64 :=
      Nat.pow_le_pow_right (by omega) (by have := p.bits_le; omega)
    omega
  call_closed q h _ := by
    refine ⟨[], ?_⟩
    rw [Connection.run_of_closed h.inside (Option.some_get q.2).symm, List.append_nil]
    exact h
  arrive_shows chunk h := h.arrive chunk.bytes
  read_shows f h hheader hne hfits hfine := h.read hw hlimit hheader hne hfits hfine
  read_closed h hclosed := by
    have hinside := h.inside
    rw [hclosed] at hinside
    rw [Move.run, Connection.readTurn_of_closed hinside]
    exact h
  isOpen_eq h := h.isOpen_eq
  wire_eq h := by rw [h.wire, List.flatMap]
  unread_eq h := h.input
  heard_eq h := h.messages
  failed_eq h := h.errors

end Cpp

/-! ## ws-rs -/

namespace Rs

namespace Connection

/-- The frame that a call asks for. -/
def PublicCall.piece : PublicCall → Option Piece
  | send call => some ⟨call.op, call.fin, call.data⟩
  | sendPong data => some ⟨.pong, true, data⟩
  | close code reason =>
      some ⟨.close, true, closeCodeBytes (sanitizeCloseCode code) ++ strBytes reason⟩
  | readFrame | readMessage | setPermessageDeflate _ => none

end Connection

/-- A connection and what the turns of `read_message` have returned. -/
structure Reader where
  conn : Connection
  results : List (Except Error (Option Message))

namespace Reader

/-- One turn of `read_message`. -/
def read (e : Env) (r : Reader) : Reader :=
  ⟨(r.conn.turn e).1, r.results ++ (r.conn.turn e).2.toList⟩

/-- The message of a result. -/
def messageOf : Except Error (Option Message) → Option (List UInt8 × UInt8)
  | .ok (some m) => some (m.payload, m.opcode.toU8)
  | _ => none

/-- The result is an error. -/
def isError : Except Error (Option Message) → Bool
  | .error _ => true
  | .ok _ => false

variable {e : Env} {role : Role} {r : Reader} {a : Assembly}

/-- What a connection shows. -/
structure Shows (role : Role) (r : Reader) (v : View) : Prop where
  role_eq : r.conn.role = role
  deflate : r.conn.permessageDeflate = false
  isOpen : r.conn.isOpen = v.inside.isSome
  /-- Between two frames. -/
  inside : ∀ a, v.inside = some a →
    r.conn.parser.state = .header ∧ r.conn.fragment = Connection.fragmentOf a
  written : r.conn.written = v.frames.map WireFrame.encode
  writes : r.conn.writes = v.frames.length
  pending : r.conn.pending = v.unread
  noErrors : readErrors r.conn.input = 0
  messages : r.results.filterMap messageOf =
    (v.replies.filterMap Reply.message?).map fun m => (m.2, m.1.toU8)
  errors : r.results.any isError = v.replies.any Reply.fails

lemma Shows.receiving {frames : List WireFrame} {unread : List UInt8} {replies : List Reply}
    (h : r.Shows role ⟨some a, frames, unread, replies⟩) :
    Connection.Receiving role r.conn a (frames.map WireFrame.encode) unread :=
  ⟨h.isOpen, h.role_eq, h.deflate, ⟨(h.inside a rfl).1, h.pending, h.noErrors⟩, (h.inside a rfl).2,
    h.written, by simpa using h.writes⟩

lemma frameBytes_eq (e : Env) (role : Role) (i : ℕ) {q : Piece}
    (hlen : q.payload.length < 2 ^ 64) : ∃ f : WireFrame, Carries role.peer q f ∧
      frameBytes e role i q.op q.payload q.fin = f.encode :=
  ⟨_, carries_emitted role q (e.keys i) hlen, rfl⟩

/-- The connection writes a frame, and may close with it. -/
lemma Shows.sent {v : View} (h : r.Shows role v) {c' : Connection} {f : WireFrame}
    {inside : Option Assembly} (hinside : ∀ a, inside = some a → v.inside = some a)
    (hsent : c' = { r.conn.sent f.encode with isOpen := inside.isSome }) :
    (⟨c', r.results⟩ : Reader).Shows role
      { v with inside := inside, frames := v.frames ++ [f] } := by
  subst hsent
  refine ⟨h.role_eq, h.deflate, rfl, fun a ha => h.inside a (hinside a ha), ?_, ?_, h.pending,
    h.noErrors, h.messages, h.errors⟩
  · simp [Connection.sent, h.written]
  · simp [Connection.sent, h.writes]

/-- What a call writes. -/
lemma run_of_piece (hw : ∀ i, e.write i = .done) {c : Connection}
    (hdeflate : c.permessageDeflate = false) {call : Connection.PublicCall} {q : Piece}
    (hq : call.piece = some q) :
    call.run e c = { c.sent (frameBytes e c.role c.writes q.op q.payload q.fin) with
      isOpen := c.isOpen && q.op != .close } := by
  cases call with
  | send call =>
      obtain rfl := Option.some.inj hq
      rw [Connection.PublicCall.run, Connection.run_call (hw _) hdeflate]
      cases call <;> simp [Call.op, Connection.sent]
  | sendPong data =>
      obtain rfl := Option.some.inj hq
      rw [Connection.PublicCall.run, Connection.sendPong, Connection.sendFrame_done e (hw _)]
      simp [Connection.sent, Connection.outFrame, frameBytes, Connection.mask]
  | close code reason =>
      obtain rfl := Option.some.inj hq
      rw [Connection.PublicCall.run, Connection.close, Connection.sendClose_done e (hw _)]
      simp [Connection.sent, Connection.outFrame, frameBytes, Connection.mask]
  | readFrame => simp [Connection.PublicCall.piece] at hq
  | readMessage => simp [Connection.PublicCall.piece] at hq
  | setPermessageDeflate enabled => simp [Connection.PublicCall.piece] at hq

/-- **A call.** -/
lemma Shows.call (hw : ∀ i, e.write i = .done) {v : View} (h : r.Shows role v)
    {call : Connection.PublicCall} {q : Piece} (hq : call.piece = some q)
    (hlen : q.payload.length < 2 ^ 64) :
    ∃ f, Carries role.peer q f ∧ (⟨call.run e r.conn, r.results⟩ : Reader).Shows role
      { v with inside := if q.op = .close then none else v.inside, frames := v.frames ++ [f] } := by
  obtain ⟨f, hf, hbytes⟩ := frameBytes_eq e r.conn.role r.conn.writes hlen
  rw [h.role_eq] at hf
  refine ⟨f, hf, h.sent (fun a ha => ?_) ?_⟩
  · split_ifs at ha
    exact ha
  · rw [run_of_piece hw h.deflate hq, hbytes, h.isOpen]
    by_cases hclose : q.op = .close
    · simp [hclose]
    · simp [hclose]

/-- Bytes come. -/
def arrive (r : Reader) (chunk : Chunk) : Reader :=
  { r with conn := { r.conn with input := r.conn.input ++ [.data chunk] } }

lemma Shows.arrive {v : View} (h : r.Shows role v) (chunk : Chunk) :
    (r.arrive chunk).Shows role { v with unread := v.unread ++ chunk.bytes } := by
  refine ⟨h.role_eq, h.deflate, h.isOpen, h.inside, h.written, h.writes, ?_, ?_, h.messages,
    h.errors⟩
  · show r.conn.readState.unparsed ++ inputBytes (r.conn.input ++ [.data chunk]) = _
    rw [Connection.inputBytes_append, ← List.append_assoc]
    simp only [inputBytes, List.append_nil]
    exact congrArg (· ++ chunk.bytes) h.pending
  · show readErrors (r.conn.input ++ [.data chunk]) = 0
    rw [Connection.readErrors_append, h.noErrors]
    rfl

lemma turn_of_closed {c : Connection} (hclosed : c.isOpen = false) :
    c.turn e = (c, some (.ok none)) := by
  rw [Connection.turn, Connection.readFrame, hclosed]
  rfl

lemma Shows.read_closed {v : View} (h : r.Shows role v) (hclosed : v.inside = none) :
    (r.read e).Shows role v := by
  have hturn : r.conn.turn e = (r.conn, some (.ok none)) :=
    turn_of_closed (by rw [h.isOpen, hclosed]; rfl)
  rw [read, hturn]
  refine ⟨h.role_eq, h.deflate, h.isOpen, h.inside, h.written, h.writes, h.pending, h.noErrors,
    ?_, ?_⟩
  · simpa [messageOf, List.filterMap_cons] using h.messages
  · simpa [isError] using h.errors

/-- **A CLOSE frame is read**: it is echoed, and what lies behind it stays. -/
lemma turn_close (hw : ∀ i, e.write i = .done) {c : Connection} {out : List (List UInt8)}
    {rest : List UInt8} {f : WireFrame}
    (h : Connection.Receiving role c a out (f.encode ++ rest))
    (hheader : headerOk role false f = true) (hne : f.payload ≠ []) (hslice : e.Slice f.payload)
    (hop : f.opcode = .close) :
    ∃ c₁, Connection.Receiving role c₁ a out rest ∧
      c.turn e = ({ c₁.sent (frameBytes e role out.length .close
        (closeCodeBytes (Cpp.Connection.closeStatus f.payload)) true) with
          isOpen := false }, some (.ok none)) := by
  obtain ⟨hcode, -, hrsv⟩ := fromU8_opcode hheader
  obtain ⟨c₁, hat, ⟨q, rs, input, rfl⟩, hread⟩ :=
    Connection.readFrame_of_frame e h.isOpen h.frames hcode hslice (.inl hne)
  have hvalid := (Connection.validateIncoming_iff role false c.parser.header.maskingKey
    hcode).mpr hheader
  rw [h.role_eq, h.deflate, Connection.verdict, Connection.frameOf, hvalid] at hread
  rcases hparse : Connection.parseClosePayload f.payload with ⟨code, reason⟩
  have hstatus : Cpp.Connection.closeStatus f.payload = code := by
    rw [← Connection.parseClosePayload_fst, hparse]
  have h₁ : Connection.Receiving role
      { c.withRead q rs input with lastClose := some (code, reason) } a out rest :=
    ⟨h.isOpen, h.role_eq, h.deflate, ⟨hat.header, hat.pending, hat.noErrors⟩, h.fragment,
      h.written, h.writes⟩
  refine ⟨_, h₁, ?_⟩
  rw [Connection.turn, hread]
  simp only [Connection.handleFrame, headerOf, hop, Connection.handleCloseFrame, hparse,
    Connection.sendClose_done e (hw _), Connection.finish, Except.map]
  rw [h₁.outFrame_close, hstatus, List.append_nil]

/-- A turn that leaves the connection open. -/
lemma Shows.turned {a' : Assembly} {frames answer : List WireFrame} {unread rest : List UInt8}
    {replies : List Reply} {c' : Connection} {result : Option (Except Error (Option Message))}
    {reply : Option Reply} (h : r.Shows role ⟨some a, frames, unread, replies⟩)
    (hturn : r.conn.turn e = (c', result))
    (hrec : Connection.Receiving role c' a' ((frames ++ answer).map WireFrame.encode) rest)
    (hmessages : result.toList.filterMap messageOf =
      (reply.toList.filterMap Reply.message?).map fun m => (m.2, m.1.toU8))
    (herrors : result.toList.any isError = reply.toList.any Reply.fails) :
    (r.read e).Shows role ⟨some a', frames ++ answer, rest, replies ++ reply.toList⟩ := by
  rw [Reader.read, hturn]
  refine ⟨hrec.role_eq, hrec.deflate, hrec.isOpen, ?_, hrec.written, ?_, hrec.frames.pending,
    hrec.frames.noErrors, ?_, ?_⟩
  · rintro b ⟨rfl⟩
    exact ⟨hrec.frames.header, hrec.fragment⟩
  · exact hrec.writes.trans (List.length_map _)
  · rw [List.filterMap_append, h.messages, hmessages, ← List.map_append, ← List.filterMap_append]
  · rw [List.any_append, h.errors, herrors, ← List.any_append]

/-- **A frame is read.** -/
lemma Shows.read (hw : ∀ i, e.write i = .done) {limit : ℕ} (hlimit : limit < 2 ^ (e.bits - 1))
    {frames : List WireFrame} {rest : List UInt8} {replies : List Reply} {f : WireFrame}
    (h : r.Shows role ⟨some a, frames, f.encode ++ rest, replies⟩)
    (hheader : headerOk role false f = true) (hne : f.payload ≠ [])
    (hfits : f.payload.length ≤ limit)
    (hfine : ∀ r ∈ (respond a f.opcode f.fin f.payload).1, r.fails = false) :
    ∃ answer, List.Forall₂ (Carries role.peer)
        ((respond a f.opcode f.fin f.payload).1.bind Reply.piece?).toList answer ∧
      (r.read e).Shows role ⟨(respond a f.opcode f.fin f.payload).2, frames ++ answer, rest,
        replies ++ (respond a f.opcode f.fin f.payload).1.toList⟩ := by
  have hslice : e.Slice f.payload := Nat.lt_of_le_of_lt hfits hlimit
  have hlt := hslice.lt
  obtain ⟨hreturned, -, hnext⟩ := Connection.turn_respond hw h.receiving hheader hne hslice
  rcases hturn : r.conn.turn e with ⟨c', result⟩
  rw [hturn] at hreturned hnext
  rcases respond_fine hfine with ⟨a', hr⟩ | ⟨a', hr⟩ | ⟨mop, bs, a', hr⟩ | ⟨hop, reason, hr⟩ <;>
    rw [hr] at hreturned hnext ⊢
  · obtain rfl : result = none := hreturned
    refine ⟨[], .nil, h.turned hturn ?_ rfl rfl⟩
    simpa [framesBytes] using hnext
  · obtain rfl : result = none := hreturned
    obtain ⟨g, hg, hbytes⟩ := frameBytes_eq e role frames.length (q := ⟨.pong, true, f.payload⟩)
      (Nat.lt_trans hlt.1 (by decide))
    refine ⟨[g], .cons hg .nil, h.turned hturn ?_ rfl rfl⟩
    rw [List.map_append, List.map_singleton, ← hbytes]
    simpa [framesBytes, Reply.frame?] using hnext
  · obtain rfl : result = some (.ok (some ⟨mop, bs⟩)) := hreturned
    refine ⟨[], .nil, h.turned hturn ?_ rfl rfl⟩
    simpa [framesBytes, Reply.frame?] using hnext
  · obtain ⟨c₁, h₁, hclose⟩ := turn_close hw h.receiving hheader hne hslice hop
    obtain ⟨g, hg, hbytes⟩ := frameBytes_eq e role frames.length
      (q := ⟨.close, true, closeCodeBytes (Cpp.Connection.closeStatus f.payload)⟩)
      (by simp [closeCodeBytes])
    refine ⟨[g], .cons hg .nil, ?_⟩
    rw [Reader.read, hclose]
    refine ⟨h₁.role_eq, h₁.deflate, rfl, by simp, ?_, ?_, h₁.frames.pending, h₁.frames.noErrors,
      ?_, ?_⟩
    · rw [List.map_append, List.map_singleton, ← hbytes]
      simp [Connection.sent, h₁.written]
    · simp [Connection.sent, h₁.writes]
    · rw [List.filterMap_append, h.messages, List.filterMap_append, List.map_append]
      rfl
    · rw [List.any_append, h.errors, List.any_append]
      rfl

end Reader

/-- **A ws-rs connection as an endpoint**, without an extension and with writes that succeed. -/
def endpoint (e : Env) (hw : ∀ i, e.write i = .done) (role : Role) {limit : ℕ}
    (hlimit : limit < 2 ^ (e.bits - 1)) : Endpoint role limit where
  State := Reader
  Call := { call : Connection.PublicCall // call.piece.isSome = true }
  piece q := q.1.piece.get q.2
  start := ⟨.new [] role false, []⟩
  call r q := ⟨q.1.run e r.conn, r.results⟩
  arrive r chunk := r.arrive chunk
  read r := r.read e
  isOpen r := r.conn.isOpen
  wire r := r.conn.written.flatten
  unread r := r.conn.pending
  heard r := r.results.filterMap Reader.messageOf
  failed r := r.results.any Reader.isError
  Shows r v := r.Shows role v
  start_shows := by
    refine ⟨rfl, rfl, rfl, ?_, rfl, rfl, rfl, rfl, rfl, rfl⟩
    rintro a ⟨rfl⟩
    exact ⟨rfl, rfl⟩
  call_shows q h hfits := by
    have hslice : (q.1.piece.get q.2).payload.length < 2 ^ (e.bits - 1) := by omega
    have h64 := (Env.Slice.lt (e := e) hslice).1
    exact h.call hw (Option.some_get q.2).symm (by omega)
  call_closed q h hfits := by
    have hslice : (q.1.piece.get q.2).payload.length < 2 ^ (e.bits - 1) := by omega
    have h64 := (Env.Slice.lt (e := e) hslice).1
    obtain ⟨f, -, hshows⟩ := h.call hw (Option.some_get q.2).symm (by omega)
    refine ⟨[f], ?_⟩
    rwa [ite_self] at hshows
  arrive_shows chunk h := h.arrive chunk
  read_shows f h hheader hne hfits hfine := h.read hw hlimit hheader hne hfits hfine
  read_closed h hclosed := h.read_closed hclosed
  isOpen_eq h := h.isOpen
  wire_eq h := by rw [h.written, List.flatMap]
  unread_eq h := h.pending
  heard_eq h := h.messages
  failed_eq h := h.errors

end Rs

/-! ## The four pairings -/

/-- The two libraries. -/
inductive Library
  | wscpp
  | wsRs
  deriving DecidableEq, Repr

/-- What the libraries run on: writes succeed, and a payload of up to `limit` bytes can be held. -/
structure Host (limit : ℕ) where
  platform : Cpp.Platform
  env : Rs.Env
  platform_writes : ∀ i, platform.write i = true
  env_writes : ∀ i, env.write i = .done
  limit_platform : limit < 2 ^ (platform.bits - 1)
  limit_env : limit < 2 ^ (env.bits - 1)

/-- A connection of the library. -/
def Library.endpoint {limit : ℕ} (h : Host limit) (role : Role) : Library → Endpoint role limit
  | wscpp => Cpp.endpoint h.platform h.platform_writes role h.limit_platform
  | wsRs => Rs.endpoint h.env h.env_writes role h.limit_env

/-- **Two connections talk**, with no extension negotiated and writes that succeed.  Whichever
library the client and the server use, whatever their applications send, in whatever portions the
bytes come and in whatever order all this happens: what an application has been given is a prefix of
what the other one has sent, and all of it when nothing is on its way; no connection is failed; and
one that is closed closes the other. -/
theorem link_delivers {limit : ℕ} (hlimit : 2 ≤ limit) (here there : Host limit)
    (client server : Library)
    (s : Link (client.endpoint here .client) (server.endpoint there .server))
    (hrun : Runs Link.step Link.Proper (.start _ _) s) :
    Delivers s.client s.server ∧ Delivers s.server s.client :=
  Link.delivers_of_runs hlimit hrun

/-! A run. -/

/-- The test of `Side.FollowsOn`. -/
def followsOn (said : List Piece) (q : Piece) : Bool :=
  match Assembly.run .idle said with
  | none => false
  | some (a, _) =>
      match a.step q with
      | none => false
      | some (_, some (.text, text)) => isValidUtf8 .little text
      | some _ => true

lemma followsOn_of_test {said : List Piece} {q : Piece} (h : followsOn said q = true) :
    Side.FollowsOn said q := by
  unfold followsOn at h
  split at h
  · simp at h
  · rename_i a ms hrun
    split at h
    · simp at h
    · rename_i a' text hstep
      refine ⟨a, ms, a', _, hrun, hstep, fun t ht => ?_⟩
      obtain rfl : text = t := (Prod.mk.inj (Option.some.inj ht)).2
      exact h
    · rename_i next hnot hstep
      refine ⟨a, ms, next.1, next.2, hrun, hstep, fun t ht => ?_⟩
      exact absurd (Prod.ext rfl ht : next = (next.1, some (.text, t))) (hnot _ _)

section Test

variable {role : Role} {limit : ℕ} {E : Endpoint role limit}

/-- The test of `Side.Proper`, for frames that are read among the given ones. -/
def Side.proper (frames : List WireFrame) (x : Side E) : SideMove E → Bool
  | .call q => decide ((E.piece q).payload.length ≤ limit) && (!E.isOpen x.state ||
      (!(E.piece q).payload.isEmpty &&
        ((E.piece q).op.isControl || followsOn x.said (E.piece q))))
  | .arrive _ => true
  | .read => !E.isOpen x.state || frames.any fun f => f.encode.isPrefixOf (E.unread x.state)

lemma Side.proper_of_test {frames : List WireFrame} {x : Side E} {move : SideMove E}
    (h : x.proper frames move = true) : x.Proper move := by
  cases move with
  | call q =>
      simp only [proper, Bool.and_eq_true, Bool.or_eq_true, decide_eq_true_eq, Bool.not_eq_true',
        List.isEmpty_eq_false_iff] at h
      refine ⟨h.1, fun hopen => ?_⟩
      obtain ⟨hne, hfollows⟩ := h.2.resolve_left (by simp [hopen])
      exact ⟨hne, fun hdata => followsOn_of_test (hfollows.resolve_left (by simp [hdata]))⟩
  | arrive n => trivial
  | read =>
      simp only [proper, Bool.or_eq_true, Bool.not_eq_true', List.any_eq_true,
        List.isPrefixOf_iff_prefix] at h
      intro hopen
      obtain ⟨f, -, hf⟩ := h.resolve_left (by simp [hopen])
      exact ⟨f, hf⟩

end Test

/-- A 64-bit host. -/
def plainHost : Host 125 where
  platform := Cpp.plainPlatform
  env := Rs.Connection.plainEnv
  platform_writes _ := rfl
  env_writes _ := rfl
  limit_platform := by decide
  limit_env := by decide

/-- A wscpp client and a ws-rs server. -/
abbrev Mixed : Type :=
  Link (Library.wscpp.endpoint plainHost .client) (Library.wsRs.endpoint plainHost .server)

/-- The client says `Hi` in two fragments; a ping that comes between them is answered between them.
Then it closes. -/
def greetMoves : List (LinkMove (Library.wscpp.endpoint plainHost .client)
    (Library.wsRs.endpoint plainHost .server)) :=
  [.client (.call ⟨.sendText [0x48] false, rfl⟩), .server (.call ⟨.send (.ping [0x07]), rfl⟩),
    .client (.arrive 100), .client .read, .client (.call ⟨.sendContinuation [0x69] true, rfl⟩),
    .server (.arrive 5), .server (.arrive 100), .server .read, .server .read, .server .read,
    .client (.call ⟨.close 1000 [], rfl⟩), .server (.arrive 100), .server .read]

/-- The frames that are read. -/
def greetFrames : List WireFrame :=
  [(true, Opcode.ping, none, [0x07]), (false, .text, some ⟨0, 1, 2, 3⟩, [0x48]),
    (true, .pong, some ⟨1, 1, 2, 3⟩, [0x07]), (true, .continuation, some ⟨2, 1, 2, 3⟩, [0x69]),
    (true, .close, some ⟨3, 1, 2, 3⟩, [0x03, 0xe8])].filterMap fun (fin, op, key, payload) =>
    if h : payload.length < 2 ^ 64 then some (.emitted fin false op key payload h) else none

/-- The test of `Link.Proper`. -/
def greetProper (s : Mixed) : LinkMove (Library.wscpp.endpoint plainHost .client)
    (Library.wsRs.endpoint plainHost .server) → Bool
  | .client move => s.client.proper greetFrames move
  | .server move => s.server.proper greetFrames move

/-- The server has been given `Hi`, and both ends are closed. -/
theorem link_delivers_greeting :
    ∃ s : Mixed, play Link.step (.start _ _) greetMoves = some s ∧
      (Library.wsRs.endpoint plainHost .server).heard s.server.state = [([0x48, 0x69], 0x1)] ∧
      (Library.wsRs.endpoint plainHost .server).isOpen s.server.state = false ∧
      Delivers s.client s.server ∧ Delivers s.server s.client := by
  have hplay : (play Link.step (.start _ _) greetMoves).map (fun s : Mixed =>
      ((Library.wsRs.endpoint plainHost .server).heard s.server.state,
        (Library.wsRs.endpoint plainHost .server).isOpen s.server.state)) =
      some ([([0x48, 0x69], 0x1)], false) := by
    decide +kernel
  obtain ⟨s, hs, hsummary⟩ := Option.map_eq_some_iff.mp hplay
  simp only [Prod.mk.injEq] at hsummary
  refine ⟨s, hs, hsummary.1, hsummary.2,
    link_delivers (by decide) plainHost plainHost .wscpp .wsRs s
    (runs_of_play (D := greetProper) _ ?_ _ hs (by decide +kernel))⟩
  intro s move h
  cases move with
  | client move => exact Side.proper_of_test h
  | server move => exact Side.proper_of_test h

end Wscpp
