import Wscpp.Written
import Wscpp.Rs.Closing
import Wscpp.Rs.Locking

/-!
# Control frames

RFC 6455 §5.5 asks of PING, PONG and CLOSE frames that they are not fragmented and have at most 125
bytes of payload.  `FIN` and the reserved bits are constants at each place that writes one.  The
length is not: neither implementation checks it anywhere, its builders take any, and what is written
comes from the arguments of `send_ping`, `send_pong` and `close`, from the texts of failures and
from the payloads of the frames that are answered.

So the rule is kept when these are short (`control_frames_brief`), by the sessions of both and by
any interleaving of threads or tasks.  The texts of failures are; for the rest it is up to the
caller and the peer (`control_frames_too_long`).  In wscpp a peer may keep to the rule and still be
answered with a PONG that is too long, since an empty PING leaves `payload_buffer_` as it is.
-/

namespace Wscpp

open Utf8 Incremental

/-! ## The rule -/

/-- The rule of RFC 6455 §5.5: `FIN` is set, the reserved bits are clear, and the payload has at
most 125 bytes. -/
structure WireFrame.IsBrief (f : WireFrame) : Prop where
  fin : f.fin = true
  rsv : f.rsv1 = false ∧ f.rsv2 = false ∧ f.rsv3 = false
  length : f.payload.length ≤ 125

/-- A byte string with the opcode of a PING, a PONG or a CLOSE is a frame that keeps the rule. -/
def ControlOk (bs : List UInt8) : Prop :=
  ∀ op : Opcode, op.isControl = true → opcodeNibble bs = some op.toU8 →
    ∃ f : WireFrame, bs = f.encode ∧ f.IsBrief

lemma controlOk_nil : ControlOk [] := by
  intro op _ hop
  cases hop

lemma controlOk_data {fin rsv1 : Bool} (op : Opcode) (hop : op.isControl = false) (form : LenForm)
    (key : Option Key) (payload : List UInt8) :
    ControlOk (encodeParts fin rsv1 false false op.toU8 form key payload) := by
  intro op' hcontrol hop'
  rw [opcodeNibble_encodeParts fin rsv1 false false op.toU8_lt, Option.some.injEq] at hop'
  rw [← Opcode.toU8_injective hop', hop] at hcontrol
  cases hcontrol

lemma controlOk_short {op : Opcode} (key : Option Key) {payload : List UInt8}
    (hlen : payload.length ≤ 125) :
    ControlOk (encodeParts true false false false op.toU8 (.shortest payload.length) key
      payload) := by
  intro _ _ _
  have hlt : payload.length < 2 ^ 64 := by omega
  exact ⟨.emitted true false op key payload hlt, rfl, rfl, ⟨rfl, rfl, rfl⟩, hlen⟩

/-- The code takes two of the bytes of a CLOSE frame. -/
lemma controlOk_close (code : UInt16) (key : Option Key) {reason : List UInt8}
    (hlen : reason.length ≤ 123) :
    ControlOk (encodeParts true false false false Opcode.close.toU8
      (.shortest (closeCodeBytes code ++ reason).length) key (closeCodeBytes code ++ reason)) := by
  apply controlOk_short
  simp only [closeCodeBytes, List.length_append, List.length_cons, List.length_nil]
  omega

lemma controlOk_encode (f : WireFrame) {op : Opcode} (hcontrol : op.isControl = true)
    (hop : f.op = op.toU8) (h : ControlOk f.encode) : f.payload.length ≤ 125 := by
  have hnibble : opcodeNibble f.encode = some op.toU8 := by
    rw [WireFrame.encode, opcodeNibble_encodeParts _ _ _ _ f.op_lt, hop]
  obtain ⟨g, heq, hbrief⟩ := h op hcontrol hnibble
  rw [WireFrame.length_eq_of_encode_eq heq]
  exact hbrief.length

/-- What an endpoint writes by itself keeps the rule, if a pong has at most 125 bytes and a reason
at most 123, since two go to the code. -/
lemma admits_controlOk (role : Role) : Admits role 125 123 ControlOk where
  room := le_rfl
  pong := fun _ _ hlen => controlOk_short _ hlen
  close := fun code _ _ _ hlen => controlOk_close code _ hlen

/-! ## wscpp -/

namespace Cpp

namespace Connection

variable {p : Platform} {c d : Connection}

variable (p) in
/-- The length of the pong, once the header of a PING is read: an empty payload leaves what
`payload_buffer_` has. -/
def pongLength (c : Connection) : ℕ :=
  if c.currentHeader.payloadLen = 0 then c.payloadBuffer.length
  else c.currentHeader.payloadLen % 2 ^ p.bits

lemma filled_buffer (h : filled p c = some d) :
    d.payloadBuffer.length = c.pongLength p ∧ d.currentHeader = c.currentHeader := by
  rw [pongLength]
  split
  · rename_i hzero
    rw [filled, if_pos hzero] at h
    obtain rfl := Option.some.inj h
    exact ⟨rfl, rfl⟩
  · rename_i hpos
    obtain ⟨-, hlen, -, buffer, rfl⟩ := filled_of_pos (Nat.one_le_iff_ne_zero.mpr hpos) h
    exact ⟨hlen, rfl⟩

end Connection

/-- What a move passes, or answers, is short enough for a control frame. -/
def Move.IsBrief (p : Platform) (c : Connection) : Move → Prop
  | sendPing data => data.length ≤ 125
  | close _ reason => reason.length ≤ 123
  | read => ∀ d, c.accepted p = some d → d.currentHeader.op = Opcode.ping.toU8 →
      d.pongLength p ≤ 125
  | _ => True

/-- A step of a session. -/
inductive Briefly (p : Platform) (c : Connection) : Connection → Prop
  | move (move : Move) (hbrief : move.IsBrief p c) : Briefly p c (move.run p c)
  /-- What writes nothing: `set_role`, `set_permessage_deflate`, and `connect` once more. -/
  | other {c' : Connection} (hwire : c'.wire = c.wire) : Briefly p c c'

namespace Connection

variable {p : Platform} {c : Connection}

lemma wrote_data (op : Opcode) (hop : op.isControl = false) (data : List UInt8) (fin : Bool) :
    Wrote ControlOk c (sendDataFrame p c op data fin).1 :=
  wrote_sendDataFrame fun _ _ _ _ => controlOk_data op hop _ _ _

/-- **One move** writes only control frames that keep the rule. -/
lemma wrote_of_isBrief {move : Move} (hbrief : move.IsBrief p c) :
    Wrote ControlOk c (move.run p c) := by
  cases move with
  | sendText text fin => exact wrote_data .text rfl text fin
  | sendBinary data fin => exact wrote_data .binary rfl data fin
  | sendContinuation data fin => exact wrote_data .continuation rfl data fin
  | sendPing data => exact wrote_sendPing fun key => controlOk_short _ hbrief
  | close code reason => exact wrote_close (admits_controlOk c.role) code hbrief
  | arrive bytes => exact .of_eq rfl rfl rfl
  | read =>
      rw [Move.run, readTurn]
      split
      · apply wrote_readOneFrame (admits_controlOk c.role)
        intro d hhanded hping
        obtain ⟨c₁, haccepted, hfilled⟩ := Option.bind_eq_some_iff.mp hhanded
        obtain ⟨hlen, hheader⟩ := filled_buffer hfilled
        rw [hlen]
        exact hbrief c₁ haccepted (hheader ▸ hping)
      · exact .refl c

/-- **Every session** whose steps are brief. -/
lemma controlOk_of_briefly {role : Role} {deflate : Bool} {input : List UInt8}
    (hrun : Relation.ReflTransGen (Briefly p) (.new role deflate input) c) :
    ∀ bs ∈ c.wire, ControlOk bs := by
  induction hrun with
  | refl => simp [new]
  | tail _ hstep ih =>
      cases hstep with
      | move move hbrief => exact (wrote_of_isBrief hbrief).forall_wire ih
      | other hwire => rwa [hwire]

end Connection

/-- What a thread passes, or answers, is short enough for a control frame. -/
def Job.IsBrief : Job → Prop
  | sendPing data _ => data.length ≤ 125
  | close _ reason _ => reason.length ≤ 123
  | pong payload _ => payload.length ≤ 125
  | fail _ reason _ => (strBytes reason).length ≤ 123
  | _ => True

instance : (job : Job) → Decidable job.IsBrief
  | .sendPing data _ => inferInstanceAs (Decidable (data.length ≤ 125))
  | .close _ reason _ => inferInstanceAs (Decidable (reason.length ≤ 123))
  | .pong payload _ => inferInstanceAs (Decidable (payload.length ≤ 125))
  | .fail _ reason _ => inferInstanceAs (Decidable ((strBytes reason).length ≤ 123))
  | .sendText _ _ _ | .sendBinary _ _ _ | .sendContinuation _ _ _ | .echo _ _ | .lost =>
      inferInstanceAs (Decidable True)

/-- The frame that a thread builds into `outbound_frame_`. -/
lemma Job.IsBrief.controlOk {job : Job} (h : job.IsBrief) (e : Endpoint) {out : List UInt8}
    (hout : ControlOk out) : ControlOk (job.build e out) := by
  have hdata : ∀ op : Opcode, op.isControl = false → ∀ data fin key,
      ControlOk (buildData e op data fin key out) := by
    intro op hop data fin key
    rw [buildData]
    split
    · exact hout
    · rw [buildInto_eq]
      exact controlOk_data op hop _ _ _
  have hclose : ∀ code (reason : List UInt8) key, reason.length ≤ 123 →
      ControlOk (buildCloseInto e.platform.host out code reason (e.role == .client) key) := by
    intro code reason key hlen
    rw [buildCloseInto_eq]
    exact controlOk_close code _ hlen
  cases job with
  | sendText text fin key => exact hdata .text rfl text fin key
  | sendBinary data fin key => exact hdata .binary rfl data fin key
  | sendContinuation data fin key => exact hdata .continuation rfl data fin key
  | sendPing data key =>
      rw [build, buildInto_eq]
      exact controlOk_short _ h
  | close code reason key => exact hclose _ reason key h
  | pong payload key =>
      rw [build, buildInto_eq]
      exact controlOk_short _ h
  | echo code key => exact hclose code [] key (by decide)
  | fail code reason key => exact hclose code (strBytes reason) key h
  | lost => exact hout

namespace System

variable {ι : Type} [DecidableEq ι] {e : Endpoint} {reader : ι}

/-- The jobs that threads begin are brief. -/
def StartsBrief (_ : System ι) : Act ι → Prop
  | .start _ job => job.IsBrief
  | _ => True

instance (s : System ι) : (a : Act ι) → Decidable (s.StartsBrief a)
  | .start _ job => inferInstanceAs (Decidable job.IsBrief)
  | .run _ _ | .finish _ => inferInstanceAs (Decidable True)

/-- What holds as long as they are: the buffer and the wire keep the rule. -/
structure Controlled (s : System ι) : Prop where
  jobs : ∀ t task, s.thread t = some task → task.job.IsBrief
  buffer : ControlOk s.outboundFrame
  wire : ∀ bs ∈ s.wire, ControlOk bs

omit [DecidableEq ι] in
lemma controlled_opened : Controlled (opened : System ι) :=
  ⟨by simp [opened], controlOk_nil, by simp [opened]⟩

omit [DecidableEq ι] in
lemma Controlled.effect {s : System ι} (h : s.Controlled) {t : ι} {job : Job} (hjob : job.IsBrief)
    (sent : Bool) (i : Instr) :
    ControlOk (s.effect e t job sent i).outboundFrame ∧
      ∀ bs ∈ (s.effect e t job sent i).wire, ControlOk bs := by
  by_cases hbuild : i = .build
  · subst hbuild
    exact ⟨hjob.controlOk e h.buffer, h.wire⟩
  · rw [effect_outboundFrame s t job sent hbuild]
    refine ⟨h.buffer, ?_⟩
    by_cases hwrite : i = .write
    · subst hwrite
      rw [System.effect]
      split
      · intro bs hbs
        rcases List.mem_append.mp hbs with hold | hnew
        · exact h.wire bs hold
        · rw [List.mem_singleton.mp hnew]
          exact h.buffer
      · exact h.wire
    · rw [effect_wire s t job sent hwrite]
      exact h.wire

/-- **One step** keeps the rule. -/
lemma Controlled.step {s s' : System ι} {a : Act ι} (h : s.Controlled) (hbrief : s.StartsBrief a)
    (hstep : s.step e reader a = some s') : s'.Controlled := by
  have hjobs : ∀ {s' : System ι} {t : ι} {x : Option Task},
      s'.thread = Function.update s.thread t x → (∀ task ∈ x, task.job.IsBrief) →
        ∀ u task, s'.thread u = some task → task.job.IsBrief := by
    intro s' t x hthread hx u task hu
    rcases eq_some_of_update hthread hu with ⟨-, hsome⟩ | ⟨-, hold⟩
    · exact hx task hsome
    · exact h.jobs u task hold
  rcases step_cases hstep with ⟨t, job, rfl, -, -, rfl⟩ |
    ⟨t, sent, job, i, rest, ok, rfl, ht, -, rfl⟩ | ⟨t, job, ok, rfl, -, rfl⟩
  · refine ⟨hjobs (x := some ⟨job, (job.kind e).program, (job.kind e).builds⟩) rfl ?_, h.buffer,
      h.wire⟩
    rintro task hx
    obtain rfl := Option.some.inj hx
    exact hbrief
  · have hjob : job.IsBrief := h.jobs t _ ht
    have hthread : ((s.effect e t job sent i).put t
        (some ⟨job, s.next rest i, s.result sent ok i⟩)).thread =
        Function.update s.thread t (some ⟨job, s.next rest i, s.result sent ok i⟩) := by
      rw [put, effect_thread]
    obtain ⟨hbuffer, hwire⟩ := h.effect (e := e) (t := t) hjob sent i
    refine ⟨hjobs hthread ?_, hbuffer, hwire⟩
    rintro task hx
    obtain rfl := Option.some.inj hx
    exact hjob
  · exact ⟨hjobs (x := none) rfl (by simp), h.buffer, h.wire⟩

end System

end Cpp

/-! ## ws-rs -/

namespace Rs

namespace Connection

variable (e : Env)

/-- `handle_incoming`. -/
def handleIncoming (c : Connection) (opcode : Opcode) (payload : List UInt8) :
    Connection × Except Error Bool :=
  match opcode with
  | .ping =>
      let r := sendPong e c payload
      (r.1, r.2.map fun _ => true)
  | .pong => (c, .ok true)
  | .close =>
      let r := handleCloseFrame e c payload
      (r.1, r.2.map fun _ => false)
  | .text =>
      if !isValidUtf8 payload then
        let r := close e c 1007 "Invalid UTF-8 in text frame"
        (r.1, r.2.map fun _ => false)
      else (c, .ok true)
  | .continuation | .binary => (c, .ok true)

/-- The calls an application makes, the low-level ones among them. -/
inductive AnyRequest
  | api (call : PublicCall)
  | sendRaw (frame : List UInt8)
  | handleIncoming (opcode : Opcode) (payload : List UInt8)

/-- The connection after a call. -/
def AnyRequest.run (c : Connection) : AnyRequest → Connection
  | api call => call.run e c
  | sendRaw frame => (c.sendRaw e frame).1
  | handleIncoming opcode payload => (c.handleIncoming e opcode payload).1

/-- What a call passes, or answers, is short enough for a control frame; bytes that are passed as
they are keep the rule by themselves. -/
def AnyRequest.IsBrief (c : Connection) : AnyRequest → Prop
  | api (.send (.ping data)) => data.length ≤ 125
  | api (.sendPong data) => data.length ≤ 125
  | api (.close _ reason) => (strBytes reason).length ≤ 123
  | api .readMessage => ∀ d, Relation.ReflTransGen (Goes e) c d → PingWithin e 125 d
  | api _ => True
  | sendRaw frame => ControlOk frame
  | handleIncoming opcode payload => opcode = .ping → payload.length ≤ 125

/-- A step of a session. -/
def Briefly (c c' : Connection) : Prop :=
  ∃ request : AnyRequest, request.IsBrief e c ∧ c' = request.run e c

variable {e} {c c' : Connection}

lemma wrote_data (op : Opcode) (hop : op.isControl = false) (data : List UInt8) (fin : Bool) :
    Wrote e ControlOk c (sendDataFrame e c op data fin).1 :=
  wrote_sendDataFrame (fun _ => controlOk_data op hop _ _ _)
    fun _ _ _ _ _ => controlOk_data op hop _ _ _

lemma wrote_handleIncoming {opcode : Opcode} {payload : List UInt8}
    (h : opcode = .ping → payload.length ≤ 125) :
    Wrote e ControlOk c (handleIncoming e c opcode payload).1 := by
  cases opcode with
  | ping => exact wrote_sendPong (admits_controlOk c.role) (h rfl)
  | pong => exact .refl c
  | close => exact wrote_handleCloseFrame (admits_controlOk c.role) payload
  | text =>
      simp only [handleIncoming]
      split
      · exact wrote_close (admits_controlOk c.role) 1007 (by decide)
      · exact .refl c
  | continuation => exact .refl c
  | binary => exact .refl c

/-- **One call** keeps the rule. -/
lemma controlOk_of_isBrief {request : AnyRequest} (hbrief : request.IsBrief e c)
    (h : ∀ bs ∈ c.written, ControlOk bs) : ∀ bs ∈ (request.run e c).written, ControlOk bs := by
  have hadmits := admits_controlOk c.role
  cases request with
  | api call =>
      cases call with
      | send call =>
          refine Extended.forall_written (Wrote.toExtended (e := e) ?_) h
          cases call with
          | text text fin => exact wrote_data .text rfl (strBytes text) fin
          | binary data fin => exact wrote_data .binary rfl data fin
          | continuation data fin =>
              exact wrote_sendFrame fun key => controlOk_data .continuation rfl _ _ _
          | ping data => exact wrote_sendFrame fun key => controlOk_short _ hbrief
      | sendPong data => exact (wrote_sendPong (e := e) hadmits hbrief).forall_written h
      | close code reason => exact (wrote_close (e := e) hadmits code hbrief).forall_written h
      | readFrame => exact (extended_readFrame (e := e) hadmits).forall_written h
      | readMessage => exact (extended_readMessage hadmits hbrief).forall_written h
      | setPermessageDeflate enabled => exact h
  | sendRaw frame => exact (wrote_sendRaw (e := e) hbrief).forall_written h
  | handleIncoming opcode payload => exact (wrote_handleIncoming (e := e) hbrief).forall_written h

/-- **Every session** whose steps are brief. -/
lemma controlOk_of_briefly {input : List ReadEvent} {role : Role} {deflate : Bool}
    (hrun : Relation.ReflTransGen (Briefly e) (new input role deflate) c) :
    ∀ bs ∈ c.written, ControlOk bs := by
  induction hrun with
  | refl => simp [new]
  | tail _ hstep ih =>
      obtain ⟨request, hbrief, rfl⟩ := hstep
      exact controlOk_of_isBrief hbrief ih

end Connection

namespace Threads

open Locks

/-- What is passed to a call, or answered, is short enough for a control frame. -/
def Outgoing.IsBrief : Outgoing → Prop
  | ping data => data.length ≤ 125
  | pong data => data.length ≤ 125
  | close _ reason => (strBytes reason).length ≤ 123
  | raw frame => ControlOk frame
  | _ => True

/-- The frame that a task builds into `outbound`, if it builds one, keeps the rule. -/
lemma Outgoing.IsBrief.controlOk {job : Job} (h : job.call.IsBrief) {e : Env} {c : Connection}
    {out bs : List UInt8} (hbuild : job.build e c out = some bs) : ControlOk bs := by
  -- a data frame keeps the rule whatever its length
  have hdata : ∀ op : Opcode, op.isControl = false → ∀ data fin,
      Job.buildData e c op data fin job.key out = some bs → ControlOk bs := by
    intro op hop data fin hbs
    rw [Job.buildData] at hbs
    split at hbs
    · obtain ⟨payload, -, rfl⟩ := Option.map_eq_some_iff.mp hbs
      rw [buildIntoOpcode, encodeInto_eq]
      exact controlOk_data op hop _ _ _
    · obtain rfl := Option.some.inj hbs
      rw [buildIntoOpcode, encodeInto_eq]
      exact controlOk_data op hop _ _ _
  have hclose : ∀ code (reason : List UInt8), reason.length ≤ 123 →
      ControlOk (buildCloseInto out code reason c.mask job.key) := by
    intro code reason hlen
    rw [buildCloseInto_eq]
    exact controlOk_close code _ hlen
  have hshort : ∀ (op : Opcode) (data : List UInt8), data.length ≤ 125 →
      ControlOk (buildIntoOpcode out op data true c.mask false job.key) := by
    intro op data hlen
    rw [buildIntoOpcode, encodeInto_eq]
    exact controlOk_short _ hlen
  rw [Job.build] at hbuild
  cases hcall : job.call with
  | text text fin => exact hdata .text rfl _ fin (by simpa only [hcall] using hbuild)
  | binary data fin => exact hdata .binary rfl data fin (by simpa only [hcall] using hbuild)
  | continuation data fin =>
      simp only [hcall, Option.some.injEq] at hbuild
      rw [← hbuild, buildIntoOpcode, encodeInto_eq]
      exact controlOk_data .continuation rfl _ _ _
  | ping data =>
      simp only [hcall, Option.some.injEq] at hbuild h
      exact hbuild ▸ hshort .ping data h
  | pong data =>
      simp only [hcall, Option.some.injEq] at hbuild h
      exact hbuild ▸ hshort .pong data h
  | close code reason =>
      simp only [hcall, Option.some.injEq] at hbuild h
      exact hbuild ▸ hclose _ (strBytes reason) h
  | raw frame =>
      simp only [hcall, Option.some.injEq] at hbuild h
      exact hbuild ▸ h
  | echo code =>
      simp only [hcall, Option.some.injEq] at hbuild
      exact hbuild ▸ hclose code [] (by decide)

/-- The frame of an operation is brief. -/
def BriefOp : Op Mutex Action → Prop
  | .act (.compress job) | .act (.build job) | .act (.write job _) => job.call.IsBrief
  | _ => True

/-- The frames of a program are brief. -/
def BriefCode (code : Code) : Prop := ∀ op ∈ code, BriefOp op

@[simp] lemma briefCode_nil : BriefCode [] := by simp [BriefCode]

@[simp] lemma briefCode_cons {op : Op Mutex Action} {code : Code} :
    BriefCode (op :: code) ↔ BriefOp op ∧ BriefCode code := by
  simp [BriefCode]

@[simp] lemma briefCode_append {code code' : Code} :
    BriefCode (code ++ code') ↔ BriefCode code ∧ BriefCode code' := by
  simp [BriefCode, or_imp, forall_and]

lemma briefCode_sendFrameInto {job : Job} (h : job.call.IsBrief) :
    BriefCode (sendFrameInto job) := by
  simpa [sendFrameInto, sendRaw, BriefOp] using h

lemma briefCode_clearOpen : BriefCode clearOpen := by
  simp [clearOpen, BriefOp]

lemma briefCode_readFrame : BriefCode readFrame := by
  simp [readFrame, BriefOp]

lemma briefCode_deliverMessage (opcode : Opcode) (payload : List UInt8) (compressed : Bool) :
    BriefCode (deliverMessage opcode payload compressed) := by
  simp [deliverMessage, loadDeflate, BriefOp]

/-- The program of a brief call. -/
lemma briefCode_program {job : Job} (h : job.call.IsBrief) : BriefCode job.program := by
  have hsend := briefCode_sendFrameInto h
  rw [Job.program]
  cases hcall : job.call with
  | text text fin => simpa [loadDeflate, BriefOp] using h
  | binary data fin => simpa [loadDeflate, BriefOp] using h
  | continuation data fin => exact hsend
  | ping data => exact hsend
  | pong data => exact hsend
  | close code reason => exact briefCode_append.mpr ⟨hsend, briefCode_clearOpen⟩
  | raw frame => simpa [sendRaw, BriefOp] using h
  | echo code => exact briefCode_append.mpr ⟨hsend, briefCode_clearOpen⟩

/-- How a task goes on is brief. -/
def BriefTurn : Turn → Prop
  | .go code => BriefCode code
  | .answer call before after => call.IsBrief ∧ BriefCode before ∧ BriefCode after

lemma BriefTurn.code {turn : Turn} (h : BriefTurn turn) (key : Key) :
    BriefCode (turn.code key) := by
  cases turn with
  | go code => exact h
  | answer call before after =>
      obtain ⟨hcall, hbefore, hafter⟩ := h
      have hprogram : BriefCode (Job.program ⟨call, key⟩) := briefCode_program hcall
      exact briefCode_append.mpr ⟨briefCode_append.mpr ⟨hbefore, hprogram⟩, hafter⟩

lemma briefTurn_deliverPlain {rest : Code} (h : BriefCode rest) (opcode : Opcode)
    (plain : List UInt8) : BriefTurn (Action.deliverPlain rest opcode plain) := by
  rw [Action.deliverPlain]
  split
  · exact ⟨(by decide : (strBytes "Invalid UTF-8 in text frame").length ≤ 123), briefCode_nil, h⟩
  · exact h

/-- **An action** leaves a brief program, if a PING that is handled is brief. -/
lemma briefTurn_turn {e : Env} {c : Connection} {a : Action} {rest : Code} (hrest : BriefCode rest)
    (ha : BriefOp (.act a))
    (hping : ∀ frame, a = .handle frame → frame.header.opcode = .ping →
      frame.payload.length ≤ 125) : BriefTurn (a.turn e c rest).2 := by
  cases a with
  | testOpen =>
      simp only [Action.turn]
      split
      · simpa [BriefTurn, BriefOp] using hrest
      · exact hrest
  | parse =>
      simp only [Action.turn]
      split
      · split
        · simpa [BriefTurn, loadDeflate, BriefOp] using hrest
        · simpa [BriefTurn, loadDeflate, BriefOp] using hrest
      · exact ⟨(by decide : (strBytes "invalid frame").length ≤ 123), hrest, briefCode_nil⟩
      · simpa [BriefTurn, BriefOp] using hrest
  | read =>
      -- where the read fails, the rest is what the function leaves on its way out
      have hunwind : BriefCode (unwind [] rest) := fun op hop => hrest op (mem_of_mem_unwind hop)
      simp only [Action.turn]
      split
      · exact briefCode_append.mpr ⟨hunwind, briefCode_clearOpen⟩
      · exact hunwind
      · exact hrest
  | handle frame =>
      simp only [Action.turn, Action.handleFrame]
      split
      · exact ⟨trivial, by simp [BriefOp], hrest⟩
      · rename_i hop
        -- the PONG carries the payload of the PING
        exact ⟨hping frame rfl hop, briefCode_nil,
          briefCode_append.mpr ⟨hrest, briefCode_readFrame⟩⟩
      · exact briefCode_append.mpr ⟨hrest, briefCode_readFrame⟩
      · simpa [BriefTurn, BriefOp] using hrest
      · simpa [BriefTurn, BriefOp] using hrest
      · simpa [BriefTurn, BriefOp] using hrest
  | setLastClose code reason => exact hrest
  | continuation payload fin =>
      simp only [Action.turn]
      split
      · -- the texts of `fail_protocol` are short
        exact ⟨(by decide : (strBytes "Unexpected continuation frame").length ≤ 123), briefCode_nil,
          hrest⟩
      · split
        · exact briefCode_append.mpr ⟨hrest, briefCode_deliverMessage _ _ _⟩
        · exact briefCode_append.mpr ⟨hrest, briefCode_readFrame⟩
  | data opcode frame =>
      simp only [Action.turn]
      split
      · exact ⟨(by decide :
          (strBytes "New data frame before fragmented message completed").length ≤ 123),
          briefCode_nil, hrest⟩
      · split
        · exact briefCode_append.mpr ⟨hrest, briefCode_readFrame⟩
        · exact briefCode_append.mpr ⟨briefCode_deliverMessage _ _ _, hrest⟩
  | deliver opcode payload compressed =>
      simp only [Action.turn]
      split
      · split
        · exact ⟨(by decide :
            (strBytes "Compressed frame without negotiated extension").length ≤ 123),
            briefCode_nil, hrest⟩
        · split
          · exact hrest
          · exact briefTurn_deliverPlain hrest opcode _
      · exact briefTurn_deliverPlain hrest opcode payload
  | compress job =>
      simp only [Action.turn]
      split
      · exact briefCode_append.mpr ⟨briefCode_sendFrameInto ha, hrest⟩
      · exact hrest
  | build job => exact hrest
  | write job written => exact hrest
  | flush => exact hrest
  | clearOpen => exact hrest

namespace System

variable {ι : Type} [DecidableEq ι] {e : Env} {s s' : System ι} {t : ι} {ok : Bool}

/-- The calls that begin are brief, and so are the PINGs that are handled. -/
def BriefStep (s : System ι) : Act ι → Prop
  | .send _ call => call.IsBrief
  | .run t _ _ => ∀ frame rest, s.rest t = .act (.handle frame) :: rest →
      frame.header.opcode = .ping → frame.payload.length ≤ 125
  | _ => True

/-- What holds as long as they are: the buffer keeps the rule, and all frames to come are brief. -/
structure Controlled (s : System ι) : Prop where
  outbound : ControlOk s.conn.outbound
  code : ∀ t, BriefCode (s.rest t)

/-- A task goes on with a brief program. -/
lemma Controlled.put {code : Code} (h : s.Controlled) (hcode : BriefCode code)
    (hout : ControlOk s'.conn.outbound) (hput : s'.rest = Function.update s.rest t code) :
    s'.Controlled := by
  refine ⟨hout, fun u => ?_⟩
  rw [hput]
  by_cases hu : u = t
  · subst hu
    rw [Function.update_self]
    exact hcode
  · rw [Function.update_of_ne hu]
    exact h.code u

omit [DecidableEq ι] in
lemma Controlled.outbound_turn (h : s.Controlled) {a : Action} (ha : BriefOp (.act a))
    (rest : Code) : ControlOk (a.turn e s.conn rest).1.outbound := by
  cases hbuild : a.isBuild with
  | false =>
      rw [(turn_setup e s.conn rest a).2.2 hbuild]
      exact h.outbound
  | true =>
      cases a with
      | build job =>
          show ControlOk ((job.build e s.conn s.conn.outbound).getD s.conn.outbound)
          cases hframe : job.build e s.conn s.conn.outbound with
          | none => exact h.outbound
          | some bs => exact Outgoing.IsBrief.controlOk ha hframe
      | _ => simp at hbuild

/-- **A task's next operation.** -/
lemma Controlled.ran (h : s.Controlled)
    (hping : ∀ frame rest, s.rest t = .act (.handle frame) :: rest →
      frame.header.opcode = .ping → frame.payload.length ≤ 125)
    (hran : Ran e s t ok s') : s'.Controlled := by
  have hcode := h.code t
  cases hran with
  | lock hrest hfree =>
      rw [hrest, briefCode_cons] at hcode
      exact h.put hcode.2 h.outbound rfl
  | unlock hrest =>
      rw [hrest, briefCode_cons] at hcode
      exact h.put hcode.2 h.outbound rfl
  | @turn a rest hrest ha hread =>
      rw [hrest, briefCode_cons] at hcode
      -- the one operation that brings a control frame of its own
      have hturn : BriefTurn (a.turn e s.conn rest).2 :=
        briefTurn_turn hcode.2 hcode.1 fun frame hframe => hping frame rest (hframe ▸ hrest)
      exact h.put (hturn.code _) (h.outbound_turn hcode.1 rest) rfl
  | compress hrest hframe =>
      rw [hrest, briefCode_cons] at hcode
      refine h.put ?_ h.outbound rfl
      exact briefCode_append.mpr ⟨briefCode_sendFrameInto hcode.1, hcode.2⟩
  | uncompressed hrest hframe =>
      rw [hrest, briefCode_cons] at hcode
      exact h.put hcode.2 h.outbound rfl
  | @part job written rest piece hrest hpiece hlt =>
      rw [hrest, briefCode_cons] at hcode
      have hnext : BriefCode (.act (.write job (written + piece.length)) :: rest) :=
        briefCode_cons.mpr hcode
      exact h.put hnext h.outbound rfl
  | last hrest =>
      rw [hrest, briefCode_cons] at hcode
      exact h.put hcode.2 h.outbound rfl
  -- a failure runs only what unlocks
  | fail hrest hok hread =>
      rw [hrest, briefCode_cons] at hcode
      exact h.put (fun op hop => hcode.2 op (mem_of_mem_unwind hop)) h.outbound rfl

/-- **One step** keeps the rule. -/
lemma Controlled.step {a : Act ι} (h : s.Controlled) (hbrief : s.BriefStep a)
    (hstep : s.step e a = some s') : s'.Controlled := by
  cases stepped_of_step hstep with
  | send hidle =>
      have hturn : BriefTurn (.answer _ [] []) := ⟨hbrief, briefCode_nil, briefCode_nil⟩
      exact h.put (hturn.code _) h.outbound rfl
  | read hidle => exact h.put briefCode_readFrame h.outbound rfl
  | run hran => exact h.ran hbrief hran
  | arrive => exact ⟨h.outbound, h.code⟩
  | hangUp => exact ⟨h.outbound, h.code⟩

omit [DecidableEq ι] in
lemma Controlled.buffer (h : s.Controlled) {job : Job} {written : ℕ} {rest : Code}
    (hrest : s.rest t = .act (.write job written) :: rest) : ControlOk (job.buffer s.conn) := by
  have hcode := h.code t
  rw [hrest, briefCode_cons] at hcode
  have hjob : job.call.IsBrief := hcode.1
  rw [Job.buffer]
  split
  · rename_i frame hcall
    rw [hcall] at hjob
    exact hjob
  · exact h.outbound

end System

end Threads

end Rs

/-! ## Both -/

/-- **Control frames keep the rule in every run whose steps are brief**: pings and pongs with at
most 125 bytes are sent, closing reasons with at most 123, and PINGs that are answered with at most
125, among them those that wscpp answers with what an earlier frame has left in `payload_buffer_`.
This is so for sessions of wscpp and for any interleaving of its threads, for sessions of ws-rs, the
low-level calls among them, and for what its tasks give to `write_all` in any interleaving. -/
theorem control_frames_brief {ι : Type} [DecidableEq ι] :
    (∀ (p : Cpp.Platform) (role : Role) (deflate : Bool) (input : List UInt8) (c : Cpp.Connection),
      Relation.ReflTransGen (Cpp.Briefly p) (.new role deflate input) c →
        ∀ bs ∈ c.wire, ControlOk bs) ∧
    (∀ (e : Cpp.Endpoint) (reader : ι) (s : Cpp.System ι),
      Moves.Runs (Cpp.System.step e reader) Cpp.System.StartsBrief .opened s →
        ∀ bs ∈ s.wire, ControlOk bs) ∧
    (∀ (e : Rs.Env) (input : List Rs.ReadEvent) (role : Role) (deflate : Bool) (c : Rs.Connection),
      Relation.ReflTransGen (Rs.Connection.Briefly e) (.new input role deflate) c →
        ∀ bs ∈ c.written, ControlOk bs) ∧
    (∀ (e : Rs.Env) (input : List Rs.ReadEvent) (role : Role) (deflate : Bool)
      (s : Rs.Threads.System ι),
      Moves.Runs (Rs.Threads.System.step e) Rs.Threads.System.BriefStep
          (.opened (.new input role deflate)) s →
        ∀ t job written rest, s.rest t = .act (.write job written) :: rest →
          ControlOk (job.buffer s.conn)) := by
  refine ⟨fun p role deflate input c hrun => Cpp.Connection.controlOk_of_briefly hrun,
    fun e reader s hrun => ?_, fun e input role deflate c hrun =>
      Rs.Connection.controlOk_of_briefly hrun, fun e input role deflate s hrun => ?_⟩
  · have hcontrolled : s.Controlled := hrun.invariant Cpp.System.controlled_opened
      fun s a s' h hbrief hstep => h.step hbrief hstep
    exact hcontrolled.wire
  · have hcontrolled : s.Controlled := hrun.invariant
      ⟨controlOk_nil, fun t => Rs.Threads.briefCode_nil⟩
      fun s a s' h hbrief hstep => h.step hbrief hstep
    intro t job written rest hrest
    exact hcontrolled.buffer hrest

/-- The payload of a PING. -/
def hi : List UInt8 := [0x68, 0x69]

/-- A client sends a PING, answers one and closes. -/
def briefMoves : List Cpp.Move := [.sendPing hi, .read, .close 1000 [0x62, 0x79, 0x65]]

/-- The same on threads, the answer by the reader. -/
def briefActs : List (Cpp.Act Bool) :=
  .start false (.sendPing hi Key.zero) :: Cpp.runs false 7 ++ .finish false ::
    .start true (.pong hi Key.zero) :: Cpp.runs true 12 ++
    .start false (.close 1000 [] Key.zero) :: Cpp.runs false 9

/-- The same with ws-rs. -/
def briefRequests : List Rs.Connection.AnyRequest :=
  [.api (.send (.ping hi)), .handleIncoming .ping hi, .api (.close 1000 "bye")]

/-- A task sends a PING, up to `write_all`. -/
def briefTask : List (Rs.Threads.Act Bool) :=
  [.send false (.ping hi), .run false true 0, .run false true 0, .run false true 0]

/-- A session, threads, a session with ws-rs and a task. -/
theorem control_frames_brief_hi :
    (∃ c, briefMoves.foldl (Cpp.Move.run Cpp.plainPlatform)
        (.new .client false [0x89, 0x02, 0x68, 0x69]) = c ∧
      c.wire = [[0x89, 0x82, 0x00, 0x01, 0x02, 0x03, 0x68, 0x68],
          [0x8a, 0x82, 0x01, 0x01, 0x02, 0x03, 0x69, 0x68],
          [0x88, 0x85, 0x02, 0x01, 0x02, 0x03, 0x01, 0xe9, 0x60, 0x7a, 0x67]] ∧
        ∀ bs ∈ c.wire, ControlOk bs) ∧
    (∃ s, Moves.play (Cpp.System.step Cpp.plainEndpoint true) .opened briefActs = some s ∧
      s.wire = [[0x89, 0x02, 0x68, 0x69], [0x8a, 0x02, 0x68, 0x69], [0x88, 0x02, 0x03, 0xe8]] ∧
        ∀ bs ∈ s.wire, ControlOk bs) ∧
    (∃ c, briefRequests.foldl (Rs.Connection.AnyRequest.run Rs.Connection.plainEnv)
        (.new [] .client false) = c ∧
      c.written = [[0x89, 0x82, 0x00, 0x01, 0x02, 0x03, 0x68, 0x68],
          [0x8a, 0x82, 0x01, 0x01, 0x02, 0x03, 0x69, 0x68],
          [0x88, 0x85, 0x02, 0x01, 0x02, 0x03, 0x01, 0xe9, 0x60, 0x7a, 0x67]] ∧
        ∀ bs ∈ c.written, ControlOk bs) ∧
    (∃ s job rest, Moves.play (Rs.Threads.System.step Rs.Connection.plainEnv)
        (.opened (.new [] .server false)) briefTask = some s ∧
      s.rest false = .act (.write job 0) :: rest ∧ job.buffer s.conn = [0x89, 0x02, 0x68, 0x69] ∧
        ControlOk (job.buffer s.conn)) := by
  obtain ⟨hcpp, hthreads, hrs, htasks⟩ := control_frames_brief (ι := Bool)
  refine ⟨⟨_, rfl, by decide +kernel, hcpp Cpp.plainPlatform .client false
      [0x89, 0x02, 0x68, 0x69] _ ?_⟩, ?_,
    ⟨_, rfl, by decide +kernel, hrs Rs.Connection.plainEnv [] .client false _ ?_⟩, ?_⟩
  · have hread : ((((Cpp.Move.sendPing hi).run Cpp.plainPlatform
        (.new .client false [0x89, 0x02, 0x68, 0x69])).accepted Cpp.plainPlatform).all
        fun d => decide (d.pongLength Cpp.plainPlatform ≤ 125)) = true := by
      decide +kernel
    have hping : (Cpp.Move.sendPing hi).IsBrief Cpp.plainPlatform
        (.new .client false [0x89, 0x02, 0x68, 0x69]) := by
      show hi.length ≤ 125
      decide
    refine .tail (.tail (.tail .refl (.move (.sendPing hi) hping)) (.move .read ?_))
      (.move (.close 1000 [0x62, 0x79, 0x65]) ?_)
    · intro d hd _
      rw [hd] at hread
      exact of_decide_eq_true hread
    · show [0x62, 0x79, 0x65].length ≤ 123
      decide
  · have hplay : (Moves.play (Cpp.System.step Cpp.plainEndpoint true) .opened briefActs).map
        (fun s => s.wire) =
        some [[0x89, 0x02, 0x68, 0x69], [0x8a, 0x02, 0x68, 0x69], [0x88, 0x02, 0x03, 0xe8]] := by
      decide +kernel
    obtain ⟨s, hs, hwire⟩ := Option.map_eq_some_iff.mp hplay
    refine ⟨s, hs, hwire, hthreads Cpp.plainEndpoint true s ?_⟩
    exact Moves.runs_of_play (D := fun s a => decide (s.StartsBrief a)) _
      (fun s a h => of_decide_eq_true h) _ hs (by decide +kernel)
  · have hlen : hi.length ≤ 125 := by decide
    have hreason : (strBytes "bye").length ≤ 123 := by decide
    exact .tail (.tail (.tail .refl ⟨.api (.send (.ping hi)), hlen, rfl⟩)
      ⟨.handleIncoming .ping hi, fun _ => hlen, rfl⟩) ⟨.api (.close 1000 "bye"), hreason, rfl⟩
  · have hlen : hi.length ≤ 125 := by decide
    refine ⟨_, _, _, rfl, rfl, rfl, htasks Rs.Connection.plainEnv [] .server false _ ?_ false _ 0 _
      rfl⟩
    exact .tail (.tail (.tail (.tail .refl ⟨.send false (.ping hi), hlen, rfl⟩)
      ⟨.run false true 0, (fun _ _ hrest => nomatch hrest), rfl⟩)
      ⟨.run false true 0, (fun _ _ hrest => nomatch hrest), rfl⟩)
      ⟨.run false true 0, (fun _ _ hrest => nomatch hrest), rfl⟩

/-- A PING with 126 bytes. -/
def longPing : List UInt8 := List.replicate 126 0x62

lemma length_longPing : longPing.length = 126 := List.length_replicate

lemma longPing_lt : longPing.length < 2 ^ 64 := by
  rw [length_longPing]
  decide

/-- A CLOSE frame with a reason of 124 bytes. -/
def longClose : List UInt8 := closeCodeBytes 1000 ++ List.replicate 124 0x61

lemma length_longClose : longClose.length = 126 := by
  rw [longClose, List.length_append, List.length_replicate]
  rfl

lemma longClose_lt : longClose.length < 2 ^ 64 := by
  rw [length_longClose]
  decide

lemma pingChunk_ne_nil : 0x89 :: 0x7e :: 0x00 :: 0x7e :: longPing ≠ [] := List.cons_ne_nil _ _

lemma pingChunk_length_le :
    (0x89 :: 0x7e :: 0x00 :: 0x7e :: longPing).length ≤ Rs.readChunk := by
  simp only [List.length_cons, length_longPing]
  decide

/-- The PING from a server. -/
def pingChunk : Rs.Chunk :=
  ⟨0x89 :: 0x7e :: 0x00 :: 0x7e :: longPing, pingChunk_ne_nil, pingChunk_length_le⟩

lemma not_controlOk (op : Opcode) (hcontrol : op.isControl = true) {key : Option Key}
    {payload : List UInt8} (hlt : payload.length < 2 ^ 64) (hlen : 125 < payload.length)
    {frames : List (List UInt8)}
    (h : frames = [(WireFrame.emitted true false op key payload hlt).encode]) :
    ¬∀ bs ∈ frames, ControlOk bs := by
  intro hall
  have hle : payload.length ≤ 125 :=
    controlOk_encode (.emitted true false op key payload hlt) hcontrol rfl (hall _ (by simp [h]))
  omega

/-- Each of these runs ends with one frame on the wire, and it is too long: `send_ping` and `close`
send what they are given, and a PING is answered in full.  wscpp does the same when a server sends
126 bytes of data and then an empty PING, which is within the rule. -/
theorem control_frames_too_long :
    (∀ moves ∈ [[.sendPing longPing], [.close 1000 (List.replicate 124 0x61)],
        [.arrive (0x89 :: 0x7e :: 0x00 :: 0x7e :: longPing), .read],
        [.arrive (0x82 :: 0x7e :: 0x00 :: 0x7e :: longPing ++ [0x89, 0x00]), .read, .read]],
      ¬∀ bs ∈ (moves.foldl (Cpp.Move.run Cpp.plainPlatform) (.new .client false [])).wire,
        ControlOk bs) ∧
    (∀ call ∈ [.send (.ping longPing), .sendPong longPing,
        .close 1000 (String.ofList (List.replicate 124 'a')), .readMessage],
      ¬∀ bs ∈ (Rs.Connection.PublicCall.run Rs.Connection.plainEnv
          (.new [.data pingChunk] .client false) call).written, ControlOk bs) := by
  have hping : ∀ (op : Opcode) {frames : List (List UInt8)}, op.isControl = true →
      frames = [(WireFrame.emitted true false op (some ⟨0, 1, 2, 3⟩) longPing longPing_lt).encode] →
        ¬∀ bs ∈ frames, ControlOk bs := by
    intro op frames hcontrol h
    exact not_controlOk op hcontrol longPing_lt (by rw [length_longPing]; decide) h
  have hclose : ∀ {frames : List (List UInt8)},
      frames = [(WireFrame.emitted true false .close (some ⟨0, 1, 2, 3⟩) longClose
        longClose_lt).encode] → ¬∀ bs ∈ frames, ControlOk bs := by
    intro frames h
    exact not_controlOk .close rfl longClose_lt (by rw [length_longClose]; decide) h
  simp only [List.mem_cons, List.not_mem_nil, or_false, forall_eq_or_imp, forall_eq]
  refine ⟨⟨hping .ping rfl ?_, hclose ?_, hping .pong rfl ?_,
    hping .pong rfl ?_⟩, hping .ping rfl ?_, hping .pong rfl ?_, hclose ?_,
    hping .pong rfl ?_⟩
  all_goals decide +kernel

end Wscpp
