import Wscpp.Cpp.Handed
import Wscpp.Cpp.Calls
import Wscpp.Rs.Connection

/-!
# What a function writes

A property of the frames on the wire, whatever it is, is kept by a function of a connection if the
frames that the function appends have it.  `Wrote W` relates a connection before and after: role
and extension are the same, and what was appended satisfies `W`.

Both implementations write by themselves in few ways, from many places: a pong carries the payload
of a PING, an echo a status code, a failure a code and one of a dozen fixed texts.  `Admits` says
that `W` holds of these, with a bound for the pongs and one for the reasons, and each function from
the write up to the turn of the reader is then related to `Wrote W` once and for all.  Which `W` is
of interest is for the users to say (`Wscpp.Emission`, `Wscpp.Control`).
-/

namespace Wscpp

open Utf8 Incremental

/-- The property holds of the control frames that an endpoint writes by itself, of pongs with at
most `ping` bytes and of CLOSE frames with a reason of at most `reason` bytes. -/
structure Admits (role : Role) (ping reason : ℕ) (W : List UInt8 → Prop) : Prop where
  /-- The texts of failures fit. -/
  room : 123 ≤ reason
  pong : ∀ key payload, payload.length ≤ ping →
    W (encodeParts true false false false Opcode.pong.toU8 (.shortest payload.length)
      (keyIf (role == .client) key) payload)
  close : ∀ code key text, isValidCloseCode code = true → text.length ≤ reason →
    W (encodeParts true false false false Opcode.close.toU8
      (.shortest (closeCodeBytes code ++ text).length) (keyIf (role == .client) key)
      (closeCodeBytes code ++ text))

/-! ## wscpp -/

namespace Cpp.Connection

/-- What a function of the connection does to the wire. -/
structure Wrote (W : List UInt8 → Prop) (c c' : Connection) : Prop where
  role_eq : c'.role = c.role
  deflate_eq : c'.permessageDeflate = c.permessageDeflate
  wire : ∃ out, c'.wire = c.wire ++ out ∧ ∀ bs ∈ out, W bs

variable {p : Platform} {W : List UInt8 → Prop} {ping reason : ℕ} {c c' d : Connection}

lemma Wrote.of_eq (hrole : c'.role = c.role) (hdeflate : c'.permessageDeflate = c.permessageDeflate)
    (hwire : c'.wire = c.wire) : Wrote W c c' :=
  ⟨hrole, hdeflate, [], by rw [hwire, List.append_nil], by simp⟩

lemma Wrote.refl (c : Connection) : Wrote W c c := .of_eq rfl rfl rfl

lemma Wrote.congr (h : Wrote W c d) (hrole : c'.role = d.role)
    (hdeflate : c'.permessageDeflate = d.permessageDeflate) (hwire : c'.wire = d.wire) :
    Wrote W c c' :=
  ⟨hrole.trans h.role_eq, hdeflate.trans h.deflate_eq, hwire ▸ h.wire⟩

lemma Wrote.forall_wire (h : Wrote W c c') (hold : ∀ bs ∈ c.wire, W bs) : ∀ bs ∈ c'.wire, W bs := by
  obtain ⟨out, heq, hout⟩ := h.wire
  intro bs hbs
  rw [heq] at hbs
  rcases List.mem_append.mp hbs with hbs | hbs
  · exact hold bs hbs
  · exact hout bs hbs

lemma wrote_write (h : W c.outboundFrame) : Wrote W c (write p c).1 := by
  rw [write]
  split
  · refine ⟨rfl, rfl, [c.outboundFrame], rfl, fun bs hbs => ?_⟩
    rw [List.mem_singleton.mp hbs]
    exact h
  · exact .of_eq rfl rfl rfl

lemma wrote_writeClose (h : Admits c.role ping reason W) {code : UInt16}
    (hcode : isValidCloseCode code = true) {text : List UInt8} (hlen : text.length ≤ reason) :
    Wrote W c (write p (buildClose p c code text)).1 := by
  have hbuilt : W (buildClose p c code text).outboundFrame := by
    show W (Cpp.buildCloseInto p.host c.outboundFrame code text c.outboundMask _)
    rw [buildCloseInto_eq]
    exact h.close code _ text hcode hlen
  have hwrite := wrote_write (p := p) hbuilt
  exact ⟨hwrite.role_eq, hwrite.deflate_eq, hwrite.wire⟩

lemma wrote_failWithClose (h : Admits c.role ping reason W) {code : UInt16}
    (hcode : isValidCloseCode code = true) {text : String}
    (hlen : (strBytes text).length ≤ 123) : Wrote W c (failWithClose p c code text) := by
  rw [failWithClose]
  split
  · have hclose := wrote_writeClose (p := p)
      (c := { emitError c (.reason text) with isClosing := true }) h hcode (hlen.trans h.room)
    exact ⟨hclose.role_eq, hclose.deflate_eq, hclose.wire⟩
  · exact .of_eq rfl rfl rfl

lemma wrote_failProtocol (h : Admits c.role ping reason W) {text : String}
    (hlen : (strBytes text).length ≤ 123) : Wrote W c (failProtocol p c text) :=
  wrote_failWithClose h (by decide) hlen

lemma isValidCloseCode_closeStatus (payload : List UInt8) :
    isValidCloseCode (closeStatus payload) = true := by
  match payload with
  | [] => decide
  | [_] => rfl
  | b0 :: b1 :: _ =>
      rw [closeStatus]
      split
      · assumption
      · decide

lemma wrote_handleCloseFrame (h : Admits c.role ping reason W) :
    Wrote W c (handleCloseFrame p c) := by
  have hempty : ([] : List UInt8).length ≤ reason := Nat.zero_le reason
  have hclose := wrote_writeClose (p := p) (c := { c with expectingClose := true }) h
    (isValidCloseCode_closeStatus c.payloadBuffer) hempty
  exact ⟨hclose.role_eq, hclose.deflate_eq, hclose.wire⟩

/-- A pong carries the payload buffer. -/
lemma wrote_handlePingFrame (h : Admits c.role ping reason W)
    (hbuffer : c.payloadBuffer.length ≤ ping) : Wrote W c (handlePingFrame p c) := by
  rw [handlePingFrame]
  split
  · exact .refl c
  · have hbuilt : W (buildInto p.host c.outboundFrame .pong c.payloadBuffer true c.outboundMask
        (p.keys c.writes) false) := by
      rw [buildInto_eq]
      exact h.pong _ _ hbuffer
    have hwrite := wrote_write (p := p) (c := { c with
      outboundFrame := buildInto p.host c.outboundFrame .pong c.payloadBuffer true c.outboundMask
        (p.keys c.writes) false }) hbuilt
    dsimp only
    split
    · rename_i c' heq
      rw [heq] at hwrite
      exact ⟨hwrite.role_eq, hwrite.deflate_eq, hwrite.wire⟩
    · rename_i c' heq
      rw [heq] at hwrite
      exact ⟨hwrite.role_eq, hwrite.deflate_eq, hwrite.wire⟩

lemma wrote_deliverPlain (h : Admits c.role ping reason W) (payload : List UInt8) (op : UInt8) :
    Wrote W c (deliverPlain p c payload op) := by
  rw [deliverPlain]
  split
  · exact wrote_failWithClose h (by decide) (by decide)
  · exact .of_eq rfl rfl rfl

lemma wrote_deliverMessage (h : Admits c.role ping reason W) (payload : List UInt8) (op : UInt8)
    (compressed : Bool) : Wrote W c (deliverMessage p c payload op compressed).1 := by
  rw [deliverMessage]
  split
  · split
    · exact wrote_failProtocol h (by decide)
    · split
      · exact wrote_failProtocol h (by decide)
      · exact wrote_deliverPlain h _ op
  · exact wrote_deliverPlain h payload op

lemma wrote_handleContinuation (h : Admits c.role ping reason W) :
    Wrote W c (handleContinuation p c) := by
  rw [handleContinuation]
  split
  · exact wrote_failProtocol h (by decide)
  · dsimp only
    split
    · have hmessage := wrote_deliverMessage (p := p) (c := { c with
        messageBuffer := c.messageBuffer ++ c.payloadBuffer }) h
        (c.messageBuffer ++ c.payloadBuffer) c.messageOpcode c.messageCompressed
      exact ⟨hmessage.role_eq, hmessage.deflate_eq, hmessage.wire⟩
    · exact .of_eq rfl rfl rfl

lemma wrote_handleData (h : Admits c.role ping reason W) : Wrote W c (handleData p c) := by
  rw [handleData]
  split
  · exact wrote_failProtocol h (by decide)
  · split
    · exact .of_eq rfl rfl rfl
    · exact (wrote_deliverMessage h _ _ _).congr rfl rfl rfl

/-- **A frame is handled.** -/
lemma wrote_handleFrame (h : Admits c.role ping reason W)
    (hbuffer : c.currentHeader.op = Opcode.ping.toU8 → c.payloadBuffer.length ≤ ping) :
    Wrote W c (handleFrame p c) := by
  rw [handleFrame]
  split_ifs with hclose hping
  · exact wrote_handleCloseFrame h
  · exact wrote_handlePingFrame h (hbuffer (eq_of_beq hping))
  · exact .refl c
  · exact wrote_handleContinuation h
  · exact wrote_handleData h
  · exact wrote_failProtocol h (by decide)

lemma headerFailure_length {text : String} (h : headerFailure p c = some text) :
    (strBytes text).length ≤ 123 := by
  rw [headerFailure] at h
  split_ifs at h <;> cases h <;> decide

/-- **One frame is read and handled.** -/
lemma wrote_readOneFrame (h : Admits c.role ping reason W)
    (hbuffer : ∀ d, handed p c = some d → d.currentHeader.op = Opcode.ping.toU8 →
      d.payloadBuffer.length ≤ ping) : Wrote W c (readOneFrame p c).1 := by
  have hends := readOneFrame_cases p c
  generalize (readOneFrame p c).1 = r at hends
  cases hends with
  | handled hhanded =>
      have hping := hbuffer _ hhanded
      obtain ⟨header, input, buffer, rfl⟩ := handed_shape hhanded
      have hframe := wrote_handleFrame (p := p) (c := { c with
        currentHeader := header, input := input, payloadBuffer := buffer }) h hping
      exact ⟨hframe.role_eq, hframe.deflate_eq, hframe.wire⟩
  | refused hheaded hbad =>
      obtain ⟨header, input, rfl⟩ := headed_shape hheaded
      have hfail := wrote_failProtocol (p := p) (c := { c with
        currentHeader := header, input := input }) h (headerFailure_length hbad)
      exact ⟨hfail.role_eq, hfail.deflate_eq, hfail.wire⟩
  | unread hrole hdeflate hwire => exact .of_eq hrole hdeflate hwire

/-! The calls of the application. -/

lemma wrote_sendOutbound (h : W c.outboundFrame) : Wrote W c (sendOutbound p c).1 := by
  have hwrite := wrote_write (p := p) h
  rw [sendOutbound]
  split
  · exact .refl c
  · split
    · rename_i c' heq
      rw [heq] at hwrite
      exact hwrite
    · rename_i c' heq
      rw [heq] at hwrite
      exact hwrite

/-- A frame is built into `outbound_frame_` and sent. -/
lemma wrote_sendBuilt {op : Opcode} {payload : List UInt8} {fin rsv1 : Bool} (key : Key)
    (h : W (encodeParts fin rsv1 false false op.toU8 (.shortest payload.length)
      (keyIf (c.role == .client) key) payload)) :
    Wrote W c (sendOutbound p { c with
      outboundFrame := buildInto p.host c.outboundFrame op payload fin c.outboundMask key
        rsv1 }).1 := by
  have hbuilt : W (buildInto p.host c.outboundFrame op payload fin c.outboundMask key rsv1) := by
    rw [buildInto_eq]
    exact h
  have hsent := wrote_sendOutbound (p := p) (c := { c with
    outboundFrame := buildInto p.host c.outboundFrame op payload fin c.outboundMask key rsv1 })
    hbuilt
  exact ⟨hsent.role_eq, hsent.deflate_eq, hsent.wire⟩

lemma wrote_sendDataFrame {op : Opcode} {data : List UInt8} {fin : Bool}
    (h : ∀ payload rsv1 key,
      Job.compressed ⟨p, c.role, c.permessageDeflate⟩ op data fin = some (payload, rsv1) →
        W (encodeParts fin rsv1 false false op.toU8 (.shortest payload.length)
          (keyIf (c.role == .client) key) payload)) :
    Wrote W c (sendDataFrame p c op data fin).1 := by
  rw [sendDataFrame]
  split
  · exact .refl c
  · split
    · exact .refl c
    · rename_i payload rsv1 hcompressed
      exact wrote_sendBuilt _ (h payload rsv1 _ hcompressed)

lemma wrote_sendPing {data : List UInt8}
    (h : ∀ key, W (encodeParts true false false false Opcode.ping.toU8 (.shortest data.length)
      (keyIf (c.role == .client) key) data)) : Wrote W c (sendPing p c data).1 := by
  rw [sendPing]
  split
  · exact .refl c
  · exact wrote_sendBuilt _ (h _)

lemma isValidCloseCode_closeCode (code : UInt16) : isValidCloseCode (closeCode code) = true := by
  rw [closeCode]
  split
  · assumption
  · decide

lemma wrote_close (h : Admits c.role ping reason W) (code : UInt16) {text : List UInt8}
    (hlen : text.length ≤ reason) : Wrote W c (close p c code text) := by
  rw [close]
  split
  · exact .refl c
  · have hclose := wrote_writeClose (p := p) (c := { c with isClosing := true }) h
      (isValidCloseCode_closeCode code) hlen
    exact ⟨hclose.role_eq, hclose.deflate_eq, hclose.wire⟩

end Cpp.Connection

/-! ## ws-rs -/

namespace Rs.Connection

/-- What a method of the connection does to the wire. -/
structure Extended (W : List UInt8 → Prop) (c c' : Connection) : Prop where
  role_eq : c'.role = c.role
  deflate_eq : c'.permessageDeflate = c.permessageDeflate
  written : ∃ out, c'.written = c.written ++ out ∧ ∀ bs ∈ out, W bs

/-- A method that reads nothing, so that the next frame is the same as before. -/
structure Wrote (e : Env) (W : List UInt8 → Prop) (c c' : Connection) : Prop extends
    Extended W c c' where
  parse : parseAll e c' = parseAll e c

variable {e : Env} {W : List UInt8 → Prop} {ping reason : ℕ} {c c' d : Connection}

lemma Extended.of_eq (hrole : c'.role = c.role)
    (hdeflate : c'.permessageDeflate = c.permessageDeflate) (hwritten : c'.written = c.written) :
    Extended W c c' :=
  ⟨hrole, hdeflate, [], by rw [hwritten, List.append_nil], by simp⟩

lemma Extended.trans (h : Extended W c d) (h' : Extended W d c') : Extended W c c' := by
  obtain ⟨out, heq, hout⟩ := h.written
  obtain ⟨out', heq', hout'⟩ := h'.written
  refine ⟨h'.role_eq.trans h.role_eq, h'.deflate_eq.trans h.deflate_eq, out ++ out', ?_, ?_⟩
  · rw [heq', heq, List.append_assoc]
  · intro bs hbs
    rcases List.mem_append.mp hbs with hbs | hbs
    · exact hout bs hbs
    · exact hout' bs hbs

lemma Extended.forall_written (h : Extended W c c') (hold : ∀ bs ∈ c.written, W bs) :
    ∀ bs ∈ c'.written, W bs := by
  obtain ⟨out, heq, hout⟩ := h.written
  intro bs hbs
  rw [heq] at hbs
  rcases List.mem_append.mp hbs with hbs | hbs
  · exact hold bs hbs
  · exact hout bs hbs

lemma Wrote.of_eq (hrole : c'.role = c.role)
    (hdeflate : c'.permessageDeflate = c.permessageDeflate) (hwritten : c'.written = c.written)
    (hparse : parseAll e c' = parseAll e c) : Wrote e W c c' :=
  ⟨.of_eq hrole hdeflate hwritten, hparse⟩

lemma Wrote.refl (c : Connection) : Wrote e W c c := .of_eq rfl rfl rfl rfl

lemma wrote_sendRaw {frame : List UInt8} (h : W frame) : Wrote e W c (sendRaw e c frame).1 := by
  have hone : ∀ bs ∈ [frame], W bs := by simpa using h
  rw [sendRaw]
  split
  · exact ⟨⟨rfl, rfl, [frame], rfl, hone⟩, rfl⟩
  · exact .of_eq rfl rfl rfl rfl
  · exact ⟨⟨rfl, rfl, [frame], rfl, hone⟩, rfl⟩

lemma wrote_sendFrameInto {build : List UInt8 → List UInt8} (h : W (build c.outbound)) :
    Wrote e W c (sendFrameInto e c build).1 := by
  have hsent := wrote_sendRaw (e := e) (c := { c with outbound := build c.outbound }) h
  exact ⟨⟨hsent.role_eq, hsent.deflate_eq, hsent.written⟩, hsent.parse⟩

lemma wrote_sendFrame {op : Opcode} {data : List UInt8} {fin rsv1 : Bool}
    (h : ∀ key, W (encodeParts fin rsv1 false false op.toU8 (.shortest data.length)
      (keyIf (c.role == .client) key) data)) :
    Wrote e W c (sendFrame e c op data fin rsv1).1 := by
  apply wrote_sendFrameInto
  rw [buildIntoOpcode, encodeInto_eq]
  exact h _

lemma wrote_sendDataFrame {op : Opcode} {data : List UInt8} {fin : Bool}
    (hplain : ∀ key, W (encodeParts fin false false false op.toU8 (.shortest data.length)
      (keyIf (c.role == .client) key) data))
    (hcompressed : ∀ payload key, c.permessageDeflate = true → op = .text ∨ op = .binary →
      compressMessage e.zlib data = some payload →
        W (encodeParts fin true false false op.toU8 (.shortest payload.length)
          (keyIf (c.role == .client) key) payload)) :
    Wrote e W c (sendDataFrame e c op data fin).1 := by
  rw [sendDataFrame]
  split
  · rename_i hc
    simp only [Bool.and_eq_true, Bool.or_eq_true, beq_iff_eq] at hc
    split
    · exact .refl c
    · rename_i payload hpayload
      exact wrote_sendFrame fun key => hcompressed payload key hc.1.1 hc.2 hpayload
  · exact wrote_sendFrame hplain

lemma wrote_sendClose (h : Admits c.role ping reason W) {code : UInt16}
    (hcode : isValidCloseCode code = true) {text : List UInt8} (hlen : text.length ≤ reason) :
    Wrote e W c (sendClose e c code text).1 := by
  have hbuilt : W (buildCloseInto c.outbound code text c.mask (e.keys c.writes)) := by
    rw [buildCloseInto_eq]
    exact h.close code _ text hcode hlen
  have hsent : Wrote e W c (sendFrameInto e c fun out =>
      buildCloseInto out code text c.mask (e.keys c.writes)).1 :=
    wrote_sendFrameInto hbuilt
  rw [sendClose]
  split
  · rename_i c' err heq
    rw [heq] at hsent
    exact hsent
  · rename_i c' heq
    rw [heq] at hsent
    exact ⟨⟨hsent.role_eq, hsent.deflate_eq, hsent.written⟩, hsent.parse⟩

lemma wrote_close (h : Admits c.role ping reason W) (code : UInt16) {text : String}
    (hlen : (strBytes text).length ≤ reason) : Wrote e W c (close e c code text).1 :=
  wrote_sendClose h (isValidCloseCode_sanitize code) hlen

lemma wrote_failProtocol {α : Type} (h : Admits c.role ping reason W) {text : String}
    (hlen : (strBytes text).length ≤ 123) : Wrote e W c (failProtocol (α := α) e c text).1 :=
  wrote_close h 1002 (hlen.trans h.room)

lemma wrote_deliverPlain (h : Admits c.role ping reason W) (op : Opcode) (plain : List UInt8) :
    Wrote e W c (deliverPlain e c op plain).1 := by
  rw [deliverPlain]
  split
  · have htext : (strBytes "Invalid UTF-8 in text frame").length ≤ 123 := by decide
    have hclose := wrote_close (e := e) h 1007 (htext.trans h.room)
    split
    · rename_i c' err heq
      rw [heq] at hclose
      exact hclose
    · rename_i c' heq
      rw [heq] at hclose
      exact hclose
  · exact .refl c

lemma wrote_deliverMessage (h : Admits c.role ping reason W) (op : Opcode) (payload : List UInt8)
    (compressed : Bool) : Wrote e W c (deliverMessage e c op payload compressed).1 := by
  rw [deliverMessage]
  split
  · split
    · exact wrote_failProtocol h (by decide)
    · split
      · exact .refl c
      · exact wrote_deliverPlain h op _
  · exact wrote_deliverPlain h op payload

lemma wrote_handleData (h : Admits c.role ping reason W) (frame : Frame) (op : Opcode) :
    Wrote e W c (handleData e c frame op).1 := by
  rw [handleData]
  split
  · exact wrote_failProtocol (α := Message) h (by decide)
  · split
    · exact .of_eq rfl rfl rfl rfl
    · exact wrote_deliverMessage h _ _ _

lemma isValidCloseCode_parseClosePayload (payload : List UInt8) :
    isValidCloseCode (parseClosePayload payload).1 = true := by
  match payload with
  | [] => decide
  | [_] => rfl
  | b0 :: b1 :: _ => exact isValidCloseCode_sanitize _

lemma wrote_handleCloseFrame (h : Admits c.role ping reason W) (payload : List UInt8) :
    Wrote e W c (handleCloseFrame e c payload).1 := by
  have hempty : ([] : List UInt8).length ≤ reason := Nat.zero_le reason
  have hsent := wrote_sendClose (e := e) (c := { c with
    lastClose := some (parseClosePayload payload) }) h
    (isValidCloseCode_parseClosePayload payload) hempty
  exact ⟨⟨hsent.role_eq, hsent.deflate_eq, hsent.written⟩, hsent.parse⟩

lemma wrote_sendPong (h : Admits c.role ping reason W) {data : List UInt8}
    (hlen : data.length ≤ ping) : Wrote e W c (sendPong e c data).1 :=
  wrote_sendFrame fun key => h.pong key data hlen

/-- **A frame is handled**; a pong carries its payload. -/
lemma wrote_handleFrame (h : Admits c.role ping reason W) {frame : Frame}
    (hlen : frame.header.opcode = .ping → frame.payload.length ≤ ping) :
    Wrote e W c (handleFrame e c frame).1 := by
  cases hop : frame.header.opcode with
  | text => simpa only [handleFrame, hop] using wrote_handleData h frame .text
  | binary => simpa only [handleFrame, hop] using wrote_handleData h frame .binary
  | close =>
      simp only [handleFrame, hop]
      exact wrote_handleCloseFrame h frame.payload
  | ping =>
      have hpong := wrote_sendPong (e := e) h (hlen hop)
      simp only [handleFrame, hop]
      split
      · rename_i c' err heq
        rw [heq] at hpong
        exact hpong
      · rename_i c' heq
        rw [heq] at hpong
        exact hpong
  | pong => simpa only [handleFrame, hop] using Wrote.refl c
  | continuation =>
      simp only [handleFrame, hop]
      split_ifs
      · exact wrote_failProtocol (α := Message) h (by decide)
      · have hmessage := wrote_deliverMessage (e := e) (c := { c with fragment := .reset }) h
          c.fragment.opcode (c.fragment.buffer ++ frame.payload) c.fragment.compressed
        exact ⟨⟨hmessage.role_eq, hmessage.deflate_eq, hmessage.written⟩, hmessage.parse⟩
      · exact .of_eq rfl rfl rfl rfl

/-- `read_frame` writes when it fails. -/
lemma extended_readFrame (h : Admits c.role ping reason W) : Extended W c (readFrame e c).1 := by
  cases hopen : c.isOpen with
  | false =>
      rw [readFrame_of_closed e hopen]
      exact .of_eq rfl rfl rfl
  | true =>
      have hends := readFrame_cases e hopen
      generalize readFrame e c = r at hends
      cases hends with
      | frame => exact .of_eq rfl rfl rfl
      | @invalid q rest rs input =>
          have hfail := wrote_failProtocol (e := e) (α := Option Frame)
            (c := c.withRead q rs input) h (by decide : (strBytes "invalid frame").length ≤ 123)
          exact ⟨hfail.role_eq, hfail.deflate_eq, hfail.written⟩
      | eof => exact .of_eq rfl rfl rfl
      | ioError => exact .of_eq rfl rfl rfl

variable (e) in
/-- If the next frame is a PING, it has at most so many bytes. -/
def PingWithin (n : ℕ) (c : Connection) : Prop :=
  ∀ frame, (readFrame e c).2 = .ok (some frame) → frame.header.opcode = .ping →
    frame.payload.length ≤ n

/-- **One turn of `read_message`.** -/
lemma extended_turn (h : Admits c.role ping reason W) (hping : PingWithin e ping c) :
    Extended W c (turn e c).1 := by
  have hread := extended_readFrame (e := e) h
  rw [PingWithin] at hping
  rw [turn]
  split
  · rename_i c' err heq
    rw [heq] at hread
    exact hread
  · rename_i c' heq
    rw [heq] at hread
    exact hread
  · rename_i c' frame heq
    rw [heq] at hread hping
    have hadmits : Admits c'.role ping reason W := hread.role_eq.symm ▸ h
    exact hread.trans (wrote_handleFrame hadmits (hping frame rfl)).toExtended

variable (e) in
/-- A turn with which the loop of `read_message` goes on. -/
def Goes (c c' : Connection) : Prop := turn e c = (c', none)

/-- **The loop of `read_message`.** -/
lemma extended_readMessage (h : Admits c.role ping reason W)
    (hping : ∀ d, Relation.ReflTransGen (Goes e) c d → PingWithin e ping d) :
    Extended W c (readMessage e c).1 := by
  suffices hfuel : ∀ n, ∀ c : Connection, Admits c.role ping reason W →
      (∀ d, Relation.ReflTransGen (Goes e) c d → PingWithin e ping d) →
        Extended W c (readMessageFuel e n c).1 from hfuel _ c h hping
  intro n
  induction n with
  | zero => exact fun c _ _ => .of_eq rfl rfl rfl
  | succ n ih =>
      intro c h hping
      have hturn := extended_turn h (hping c .refl)
      rw [readMessageFuel]
      split
      · rename_i c' r heq
        rw [heq] at hturn
        exact hturn
      · rename_i c' heq
        rw [heq] at hturn
        have hadmits : Admits c'.role ping reason W := hturn.role_eq.symm ▸ h
        exact hturn.trans (ih c' hadmits fun d hd => hping d (.head heq hd))

end Rs.Connection

end Wscpp
