import Wscpp.Rs.Connection
import Wscpp.Frame.Assembly

/-!
# A ws-rs session from end to end

One endpoint sends messages, whole or in fragments, with pings in between, and closes.  The
other reads.  `session_delivers` says that the reader gets the messages and nothing else, the
close code and reason, and answers each ping with one pong, for every choice of masking keys
and every way the stream is cut into reads.

The reader is followed frame by frame.  `Receiving` relates the connection between two frames
to the reassembly machine `Assembly`; there is one lemma per kind of frame (`turn_data`,
`turn_ping`, `turn_close`) that says what one turn of `read_message` does to it, and the session
is an induction over the sending calls.

The lengths are those of slices, so below `isize::MAX`.  A session ends with a CLOSE frame, whose
payload is never empty; a frame without payload is therefore always followed by a byte, and the
parser reports it.
-/

namespace Wscpp.Rs

open Utf8

/-! ## The sending side -/

/-- A sending call. -/
inductive Call
  | text (text : String) (fin : Bool)
  | binary (data : List UInt8) (fin : Bool)
  | continuation (data : List UInt8) (fin : Bool)
  | ping (data : List UInt8)

namespace Call

/-- The opcode of the frame a call sends. -/
def op : Call → Opcode
  | text _ _ => .text
  | binary _ _ => .binary
  | continuation _ _ => .continuation
  | ping _ => .ping

/-- The payload of the frame a call sends. -/
def data : Call → List UInt8
  | text s _ => strBytes s
  | binary d _ => d
  | continuation d _ => d
  | ping d => d

/-- The `FIN` flag of the frame a call sends. -/
def fin : Call → Bool
  | text _ f => f
  | binary _ f => f
  | continuation _ f => f
  | ping _ => true

/-- The piece of a message a call sends, if it is not a ping. -/
def piece : Call → Option Piece
  | ping _ => none
  | call => some ⟨call.op, call.fin, call.data⟩

/-- The payload of a ping. -/
def pingData : Call → Option (List UInt8)
  | ping d => some d
  | _ => none

/-- The call on a connection. -/
def run (e : Env) (c : Connection) : Call → Connection × Except Error Unit
  | text s f => c.sendText e s f
  | binary d f => c.sendBinary e d f
  | continuation d f => c.sendContinuation e d f
  | ping d => c.sendPing e d

end Call

namespace Connection

/-- The connection after a sequence of sending calls. -/
def runCalls (e : Env) : Connection → List Call → Connection
  | c, [] => c
  | c, call :: calls => runCalls e (call.run e c).1 calls

end Connection

/-- The byte string of the `i`-th frame an endpoint sends. -/
def frameBytes (e : Env) (role : Role) (i : ℕ) (op : Opcode) (payload : List UInt8) (fin : Bool) :
    List UInt8 :=
  encodeParts fin false false false op.toU8 (.shortest payload.length)
    (keyIf (role == .client) (e.keys i)) payload

/-- The byte strings of a sequence of calls, the first of them the `i`-th frame. -/
def callBytes (e : Env) (role : Role) : ℕ → List Call → List (List UInt8)
  | _, [] => []
  | i, call :: calls => frameBytes e role i call.op call.data call.fin ::
      callBytes e role (i + 1) calls

namespace Connection

/-- A sending call writes its frame. -/
lemma run_call {e : Env} {c : Connection} (hw : e.write c.writes = .done)
    (hdeflate : c.permessageDeflate = false) (call : Call) :
    call.run e c =
      (c.sent (frameBytes e c.role c.writes call.op call.data call.fin), .ok ()) := by
  cases call with
  | text s f =>
      rw [Call.run, sendText, sendDataFrame, hdeflate]
      exact sendFrame_done e hw .text (strBytes s) f false
  | binary d f =>
      rw [Call.run, sendBinary, sendDataFrame, hdeflate]
      exact sendFrame_done e hw .binary d f false
  | continuation d f => exact sendFrame_done e hw .continuation d f false
  | ping d => exact sendFrame_done e hw .ping d true false

/-- What a sequence of sending calls writes. -/
lemma runCalls_eq {e : Env} (hw : ∀ i, e.write i = .done) (calls : List Call) {c : Connection}
    (hdeflate : c.permessageDeflate = false) :
    (runCalls e c calls).written = c.written ++ callBytes e c.role c.writes calls ∧
      (runCalls e c calls).writes = c.writes + calls.length ∧
      (runCalls e c calls).role = c.role := by
  induction calls generalizing c with
  | nil => simp [runCalls, callBytes]
  | cons call calls ih =>
      rw [runCalls, run_call (hw _) hdeflate]
      obtain ⟨hwritten, hwrites, hrole⟩ := ih (c := c.sent (frameBytes e c.role c.writes call.op
        call.data call.fin)) hdeflate
      refine ⟨?_, ?_, hrole⟩
      · rw [hwritten]
        simp [sent, callBytes]
      · rw [hwrites, List.length_cons]
        simp only [sent]
        omega

/-! ## The reading side -/

/-- The fragment state of a reassembly. -/
def fragmentOf : Assembly → FragmentState
  | .idle => .reset
  | .inside op buffer => ⟨true, buffer, op, false⟩

/-- The reader between two frames: `a` is the message under way, `out` what it has written,
`rest` the bytes that follow. -/
structure Receiving (role : Role) (c : Connection) (a : Assembly) (out : List (List UInt8))
    (rest : List UInt8) : Prop where
  isOpen : c.isOpen = true
  role_eq : c.role = role
  deflate : c.permessageDeflate = false
  frames : c.AtFrame rest
  fragment : c.fragment = fragmentOf a
  written : c.written = out
  writes : c.writes = out.length

variable {e peer : Env} {role : Role} {c : Connection} {a : Assembly} {out : List (List UInt8)}
  {rest : List UInt8}

lemma Receiving.withFragment (h : Receiving role c a out rest) (a' : Assembly) :
    Receiving role { c with fragment := fragmentOf a' } a' out rest where
  isOpen := h.isOpen
  role_eq := h.role_eq
  deflate := h.deflate
  frames := ⟨h.frames.header, h.frames.pending, h.frames.noErrors⟩
  fragment := rfl
  written := h.written
  writes := h.writes

/-- The next frame of the other endpoint is read and passes validation. -/
lemma Receiving.turn_eq {op : Opcode} {payload : List UInt8} {fin : Bool} {i : ℕ}
    (h : Receiving role c a out (frameBytes peer role.peer i op payload fin ++ rest))
    (hslice : e.Slice payload) (hne : payload ≠ [] ∨ rest ≠ []) :
    ∃ c₁ frame, Receiving role c₁ a out rest ∧ frame.header.opcode = op ∧
      frame.header.fin = fin ∧ frame.header.rsv1 = false ∧ frame.payload = payload ∧
      turn e c = handleFrame e c₁ frame := by
  have hlt : payload.length < 2 ^ 64 := Nat.lt_trans hslice.lt.1 (by decide)
  let f := WireFrame.emitted fin false op (keyIf (role.peer == .client) (peer.keys i)) payload hlt
  obtain ⟨c₁, hat, ⟨q, rs, input, rfl⟩, hread⟩ := readFrame_of_frame e (f := f) h.isOpen h.frames
    (Opcode.fromU8_toU8 op) hslice hne
  refine ⟨c.withRead q rs input, c.frameOf f op,
    ⟨h.isOpen, h.role_eq, h.deflate, hat, h.fragment, h.written, h.writes⟩, rfl, rfl, rfl, rfl, ?_⟩
  have hverdict : verdict c.role c.permessageDeflate (c.frameOf f op) =
      .ok (some (c.frameOf f op)) := by
    have hvalid : validateIncoming (c.frameOf f op).header c.role c.permessageDeflate = .ok () := by
      rw [h.role_eq, h.deflate]
      cases role <;> simp [validateIncoming, frameOf, headerOf, f, WireFrame.emitted, Role.peer]
    rw [verdict, hvalid]
  rw [turn, hread, hverdict]

/-- The outcome of a turn that completed a message. -/
def delivered (m : Opcode × List UInt8) : Except Error (Option Message) := .ok (some ⟨m.1, m.2⟩)

lemma deliverMessage_plain {op : Opcode} {payload : List UInt8}
    (hvalid : op = .text → ValidUtf8 payload) :
    deliverMessage e c op payload false = (c, .ok ⟨op, payload⟩) := by
  have hok : (op == .text && !isValidUtf8 payload) = false := by
    cases hop : op == Opcode.text with
    | false => rfl
    | true =>
        have hutf := (isValidUtf8_iff .little payload).mpr (hvalid (by simpa using hop))
        simp [isValidUtf8, hutf]
  simp [deliverMessage, deliverPlain, hok]

/-- The first frame of a message, or a whole one. -/
lemma handleFrame_data {frame : Frame} {op : Opcode} (hfop : frame.header.opcode = op)
    (hop : op.isControl = false) (hcont : op ≠ .continuation) :
    handleFrame e c frame = handleData e c frame op := by
  rw [handleFrame, hfop]
  cases op with
  | text => rfl
  | binary => rfl
  | continuation => exact absurd rfl hcont
  | close => simp [Opcode.isControl] at hop
  | ping => simp [Opcode.isControl] at hop
  | pong => simp [Opcode.isControl] at hop

/-- **A data frame** does to the reader what it does to the reassembly. -/
lemma turn_data {op : Opcode} {payload : List UInt8} {fin : Bool} {i : ℕ} {a' : Assembly}
    {m : Option (Opcode × List UInt8)}
    (h : Receiving role c a out (frameBytes peer role.peer i op payload fin ++ rest))
    (hslice : e.Slice payload) (hne : payload ≠ [] ∨ rest ≠ [])
    (hop : op.isControl = false) (hstep : a.step ⟨op, fin, payload⟩ = some (a', m))
    (hvalid : ∀ d ∈ m, d.1 = .text → ValidUtf8 d.2) :
    ∃ c', Receiving role c' a' out rest ∧ turn e c = (c', m.map delivered) := by
  obtain ⟨c₁, frame, h₁, hfop, hffin, hfrsv, hfpay, hturn⟩ := h.turn_eq hslice hne
  have hfrag := h₁.fragment
  rw [hturn]
  cases a with
  | idle =>
      rw [Assembly.step] at hstep
      split_ifs at hstep with hcont hfin
      · -- a whole message
        simp only [Option.some.injEq, Prod.mk.injEq] at hstep
        obtain ⟨rfl, rfl⟩ := hstep
        refine ⟨c₁, h₁, ?_⟩
        rw [handleFrame_data hfop hop hcont, handleData, hfrag]
        simp only at hfin
        have hdeliver := deliverMessage_plain (e := e) (c := c₁) (hvalid _ rfl)
        simp [fragmentOf, FragmentState.reset, hffin, hfin, hfpay, hfrsv, hdeliver, finish,
          delivered, Except.map]
      · -- the first fragment of one
        simp only [Option.some.injEq, Prod.mk.injEq] at hstep
        obtain ⟨rfl, rfl⟩ := hstep
        simp only [Bool.not_eq_true] at hfin
        refine ⟨_, h₁.withFragment (.inside op payload), ?_⟩
        rw [handleFrame_data hfop hop hcont, handleData, hfrag]
        simp [fragmentOf, FragmentState.reset, hffin, hfin, hfpay, hfrsv]
  | inside mop buffer =>
      rw [Assembly.step] at hstep
      split_ifs at hstep with hcont hfin
      · -- the last fragment
        simp only [Option.some.injEq, Prod.mk.injEq] at hstep
        obtain ⟨rfl, rfl⟩ := hstep
        simp only at hcont hfin
        refine ⟨_, h₁.withFragment .idle, ?_⟩
        have hdeliver := deliverMessage_plain (e := e) (c := { c₁ with fragment := .reset })
          (hvalid _ rfl)
        simp [handleFrame, hfop, hcont, hfrag, fragmentOf, hffin, hfin, hfpay, hdeliver, finish,
          delivered, Except.map]
      · -- one more in the middle
        simp only [Option.some.injEq, Prod.mk.injEq] at hstep
        obtain ⟨rfl, rfl⟩ := hstep
        simp only [Bool.not_eq_true] at hcont hfin
        refine ⟨_, h₁.withFragment (.inside mop (buffer ++ payload)), ?_⟩
        simp [handleFrame, hfop, hcont, hfrag, fragmentOf, hffin, hfin, hfpay]

/-- **A ping** is answered with its payload. -/
lemma turn_ping {payload : List UInt8} {i : ℕ} (hw : ∀ i, e.write i = .done)
    (h : Receiving role c a out (frameBytes peer role.peer i .ping payload true ++ rest))
    (hslice : e.Slice payload) (hne : payload ≠ [] ∨ rest ≠ []) :
    ∃ c', Receiving role c' a (out ++ [frameBytes e role out.length .pong payload true]) rest ∧
      turn e c = (c', none) := by
  obtain ⟨c₁, frame, h₁, hfop, -, -, hfpay, hturn⟩ := h.turn_eq hslice hne
  have hframe : outFrame e c₁ .pong payload true false =
      frameBytes e role out.length .pong payload true := by
    rw [outFrame, mask, h₁.role_eq, h₁.writes, frameBytes]
  refine ⟨c₁.sent (outFrame e c₁ .pong payload true false), ?_, ?_⟩
  · refine ⟨h₁.isOpen, h₁.role_eq, h₁.deflate, ⟨h₁.frames.header, h₁.frames.pending,
      h₁.frames.noErrors⟩, h₁.fragment, ?_, ?_⟩
    · rw [← hframe, ← h₁.written]
      rfl
    · simp [sent, h₁.writes]
  · rw [hturn, handleFrame, hfop, hfpay]
    simp only [sendPong, sendFrame_done e (hw _)]

/-- **A close** is reported and echoed. -/
lemma turn_close {code : UInt16} {reason : String} {i : ℕ} (hw : ∀ i, e.write i = .done)
    (h : Receiving role c a out (frameBytes peer role.peer i .close
      (closeCodeBytes (sanitizeCloseCode code) ++ strBytes reason) true))
    (hslice : e.Slice (closeCodeBytes (sanitizeCloseCode code) ++ strBytes reason)) :
    ∃ c', turn e c = (c', some (.ok none)) ∧
      c'.lastClose = some (sanitizeCloseCode code, strBytes reason) ∧
      c'.written = out ++ [frameBytes e role out.length .close
        (closeCodeBytes (sanitizeCloseCode code)) true] := by
  have hpay : closeCodeBytes (sanitizeCloseCode code) ++ strBytes reason ≠ [] := by
    simp [closeCodeBytes]
  rw [← List.append_nil (frameBytes _ _ _ _ _ _)] at h
  obtain ⟨c₁, frame, h₁, hfop, -, -, hfpay, hturn⟩ := h.turn_eq hslice (.inl hpay)
  have hparse : parseClosePayload frame.payload = (sanitizeCloseCode code, strBytes reason) := by
    rw [hfpay]
    simp only [closeCodeBytes, List.cons_append, List.nil_append, parseClosePayload]
    rw [closeCodeOf_closeCodeBytes, sanitizeCloseCode_idem,
      fromUtf8Lossy_of_valid (validUtf8_strBytes reason)]
  let c₂ : Connection := { c₁ with lastClose := some (sanitizeCloseCode code, strBytes reason) }
  refine ⟨{ c₂.sent (outFrame e c₂ .close (closeCodeBytes (sanitizeCloseCode code) ++ []) true
    false) with isOpen := false }, ?_, rfl, ?_⟩
  · rw [hturn, handleFrame, hfop]
    simp only [handleCloseFrame, hparse, sendClose_done e (hw _), finish, Except.map]
    rfl
  · have hframe :
        frameBytes e role out.length .close (closeCodeBytes (sanitizeCloseCode code)) true =
          outFrame e c₁ .close (closeCodeBytes (sanitizeCloseCode code) ++ []) true false := by
      rw [outFrame, mask, h₁.role_eq, h₁.writes, frameBytes, List.append_nil]
    rw [hframe, ← h₁.written]
    rfl

/-! ## The session -/

variable (e) in
/-- The results of `n` calls of `read_message`, and the connection after them. -/
def readMessages : ℕ → Connection → List (Except Error (Option Message)) × Connection
  | 0, c => ([], c)
  | n + 1, c =>
      let r := readMessage e c
      let t := readMessages n r.1
      (r.2 :: t.1, t.2)

lemma readMessages_of_continue {c' : Connection} (h : turn e c = (c', none)) (n : ℕ) :
    readMessages e (n + 1) c = readMessages e (n + 1) c' := by
  have hsame : readMessage e c = readMessage e c' := by
    rw [readMessage_eq, h]
  rw [readMessages, readMessages, hsame]

lemma readMessages_of_result {c' : Connection} {r : Except Error (Option Message)}
    (h : turn e c = (c', some r)) (n : ℕ) :
    readMessages e (n + 1) c = (r :: (readMessages e n c').1, (readMessages e n c').2) := by
  have hresult : readMessage e c = (c', r) := by
    rw [readMessage_eq, h]
  rw [readMessages, hresult]

/-- The pongs an endpoint sends for a sequence of pings, the first of them as the `i`-th frame. -/
def pongs (e : Env) (role : Role) (i : ℕ) (pings : List (List UInt8)) : List (List UInt8) :=
  pings.mapIdx fun j payload => frameBytes e role (i + j) .pong payload true

lemma pongs_cons (e : Env) (role : Role) (i : ℕ) (p : List UInt8) (pings : List (List UInt8)) :
    pongs e role i (p :: pings) =
      frameBytes e role i .pong p true :: pongs e role (i + 1) pings := by
  simp only [pongs, List.mapIdx_cons, Nat.add_zero]
  congr 2
  funext j payload
  rw [Nat.add_right_comm, Nat.add_assoc]

/-- **A whole session**, read from any point of it: `calls` are the calls still to be seen. -/
lemma readMessages_session (hw : ∀ i, e.write i = .done) {code : UInt16} {reason : String}
    (hreason : e.Slice (closeCodeBytes (sanitizeCloseCode code) ++ strBytes reason))
    (calls : List Call) {i k : ℕ} {ms : List (Opcode × List UInt8)}
    (h : Receiving role c a out ((callBytes peer role.peer i calls).flatten ++
      frameBytes peer role.peer k .close
        (closeCodeBytes (sanitizeCloseCode code) ++ strBytes reason) true))
    (hslice : ∀ call ∈ calls, e.Slice call.data)
    (hrun : a.run (calls.filterMap Call.piece) = some (.idle, ms))
    (hvalid : ∀ m ∈ ms, m.1 = .text → ValidUtf8 m.2) :
    ∃ c', readMessages e (ms.length + 1) c = (ms.map delivered ++ [.ok none], c') ∧
      c'.lastClose = some (sanitizeCloseCode code, strBytes reason) ∧
      c'.written = out ++ pongs e role out.length (calls.filterMap Call.pingData) ++
        [frameBytes e role (out.length + (calls.filterMap Call.pingData).length) .close
          (closeCodeBytes (sanitizeCloseCode code)) true] := by
  induction calls generalizing c a out i ms with
  | nil =>
      simp only [List.filterMap_nil, Assembly.run, Option.some.injEq, Prod.mk.injEq] at hrun
      obtain ⟨rfl, rfl⟩ := hrun
      obtain ⟨c', hturn, hlast, hwritten⟩ := turn_close hw h hreason
      refine ⟨c', readMessages_of_result hturn 0, hlast, ?_⟩
      simpa [pongs] using hwritten
  | cons call calls ih =>
      rw [callBytes, List.flatten_cons, List.append_assoc] at h
      rw [List.forall_mem_cons] at hslice
      -- the close frame at least is still to come
      have hrest : (callBytes peer role.peer (i + 1) calls).flatten ++
          frameBytes peer role.peer k .close
            (closeCodeBytes (sanitizeCloseCode code) ++ strBytes reason) true ≠ [] := by
        simp [frameBytes, encodeParts]
      by_cases hping : ∃ d, call = .ping d
      · obtain ⟨d, rfl⟩ := hping
        obtain ⟨c', h', hturn⟩ := turn_ping hw h hslice.1 (.inr hrest)
        obtain ⟨c'', hread, hlast, hwritten⟩ := ih h' hslice.2 hrun hvalid
        refine ⟨c'', (readMessages_of_continue hturn _).trans hread, hlast, ?_⟩
        have hpings : (Call.ping d :: calls).filterMap Call.pingData =
            d :: calls.filterMap Call.pingData := rfl
        have hcount : out.length + (calls.filterMap Call.pingData).length + 1 =
            out.length + 1 + (calls.filterMap Call.pingData).length := by omega
        rw [hwritten, hpings, pongs_cons]
        simp only [Call.data, List.length_append, List.length_cons, List.length_nil, Nat.zero_add,
          List.append_assoc, List.cons_append, List.nil_append, ← Nat.add_assoc, hcount]
      · obtain ⟨hpiece, hdata, hop⟩ : call.piece = some ⟨call.op, call.fin, call.data⟩ ∧
            call.pingData = none ∧ call.op.isControl = false := by
          cases call with
          | ping d => exact absurd ⟨d, rfl⟩ hping
          | text s f => exact ⟨rfl, rfl, rfl⟩
          | binary d f => exact ⟨rfl, rfl, rfl⟩
          | continuation d f => exact ⟨rfl, rfl, rfl⟩
        rw [List.filterMap_cons_some hpiece] at hrun
        rw [List.filterMap_cons_none hdata]
        obtain ⟨a', m, ms', hstep, hrun', rfl⟩ := Assembly.run_cons_eq_some hrun
        obtain ⟨c', h', hturn⟩ := turn_data h hslice.1 (.inr hrest) hop hstep
          fun d hd => hvalid d (List.mem_append_left _ (Option.mem_toList.mpr hd))
        obtain ⟨c'', hread, hlast, hwritten⟩ := ih h' hslice.2 hrun'
          fun d hd => hvalid d (List.mem_append_right _ hd)
        refine ⟨c'', ?_, hlast, hwritten⟩
        cases m with
        | none => exact (readMessages_of_continue hturn _).trans hread
        | some m =>
            have hone := readMessages_of_result hturn (ms'.length + 1)
            rw [hread] at hone
            simpa using hone

/-- The sender of a session after its last call. -/
def sender (e : Env) (back : List ReadEvent) (role : Role) (calls : List Call) (code : UInt16)
    (reason : String) : Connection :=
  (close e (runCalls e (new back role false) calls) code reason).1

/-- What the sender of a session has written. -/
lemma sender_written {e : Env} (hw : ∀ i, e.write i = .done) (back : List ReadEvent)
    (role : Role) (calls : List Call) (code : UInt16) (reason : String) :
    (sender e back role calls code reason).written.flatten =
      (callBytes e role 0 calls).flatten ++ frameBytes e role calls.length .close
        (closeCodeBytes (sanitizeCloseCode code) ++ strBytes reason) true := by
  obtain ⟨hwritten, hwrites, hrole⟩ := runCalls_eq (e := e) hw calls (c := new back role false) rfl
  rw [sender]
  generalize runCalls e (new back role false) calls = c at hwritten hwrites hrole
  simp only [new, List.nil_append, Nat.zero_add] at hwritten hwrites hrole
  rw [close, sendClose_done e (hw _)]
  simp [sent, outFrame, frameBytes, mask, hwritten, hwrites, hrole]

/-- **A session is delivered.**  Whatever messages an endpoint sends, in whatever fragments and
with whatever pings in between, before it closes, its peer reads exactly these messages and then
the end, learns the close code and reason, and has written one pong per ping, in order and with
its payload, followed by the echo of the close. -/
theorem session_delivers (es er : Env) (hes : ∀ i, es.write i = .done)
    (her : ∀ i, er.write i = .done) (back : List ReadEvent) (role : Role)
    (msgs : List Wscpp.Message) (calls : List Call) (code : UInt16) (reason : String)
    (hcalls : calls.filterMap Call.piece = msgs.flatMap Message.pieces)
    (htext : ∀ m ∈ msgs, m.op = .text → ValidUtf8 m.payload)
    (hslice : ∀ call ∈ calls, er.Slice call.data)
    (hreason : er.Slice (closeCodeBytes (sanitizeCloseCode code) ++ strBytes reason))
    (input : List ReadEvent) (hcuts : readErrors input = 0)
    (hinput : inputBytes input = (sender es back role calls code reason).written.flatten) :
    ∃ peer : Connection,
      readMessages er (msgs.length + 1) (new input role.peer false) =
        (msgs.map (fun m => .ok (some ⟨m.op, m.payload⟩)) ++ [.ok none], peer) ∧
      peer.lastClose = some (sanitizeCloseCode code, strBytes reason) ∧
      peer.written = pongs er role.peer 0 (calls.filterMap Call.pingData) ++
        [frameBytes er role.peer (calls.filterMap Call.pingData).length .close
          (closeCodeBytes (sanitizeCloseCode code)) true] := by
  rw [sender_written hes] at hinput
  have hpeer : role.peer.peer = role := by cases role <;> rfl
  have hstart : Receiving role.peer (new input role.peer false) .idle []
      ((callBytes es role.peer.peer 0 calls).flatten ++
        frameBytes es role.peer.peer calls.length .close
          (closeCodeBytes (sanitizeCloseCode code) ++ strBytes reason) true) := by
    refine ⟨rfl, rfl, rfl, ⟨rfl, ?_, hcuts⟩, rfl, rfl, rfl⟩
    rw [hpeer, ← hinput]
    rfl
  -- the pieces of the calls make the messages
  have hrun : Assembly.idle.run (calls.filterMap Call.piece) =
      some (.idle, msgs.map fun m => (m.op, m.payload)) := by
    rw [hcalls, Assembly.run_pieces]
  obtain ⟨peer, hread, hlast, hwritten⟩ := readMessages_session her hreason calls hstart hslice hrun
    (by simpa using fun m hm => htext m hm)
  refine ⟨peer, ?_, hlast, ?_⟩
  · rw [List.length_map, List.map_map] at hread
    exact hread
  · simpa using hwritten

lemma plainEnv_bits_le : 64 ≤ 64 := Nat.le_refl 64

/-- A 64-bit host whose keys count up and on which every write succeeds. -/
def plainEnv : Env where
  bits := 64
  bits_le := plainEnv_bits_le
  keys := fun i => ⟨UInt8.ofNat i, 1, 2, 3⟩
  write := fun _ => .done
  zlib := storedZlib

/-- A client sends `Hello` in two fragments with a ping between them, and an empty binary
message, and closes with an invalid code; the server reads the stream in two pieces. -/
theorem session_delivers_hello :
    ∃ peer : Connection,
      readMessages plainEnv 3 (new [.data ⟨[0x01, 0x82, 0x00, 0x01, 0x02, 0x03, 0x48, 0x64, 0x89],
          by decide, by decide⟩, .data ⟨[0x81, 0x01, 0x01, 0x02, 0x03, 0x06, 0x80, 0x83, 0x02, 0x01,
          0x02, 0x03, 0x6e, 0x6d, 0x6d, 0x82, 0x80, 0x03, 0x01, 0x02, 0x03, 0x88, 0x85, 0x04, 0x01,
          0x02, 0x03, 0x07, 0xeb, 0x60, 0x7a, 0x61], by decide, by decide⟩] .server false) =
        ([.ok (some ⟨.text, [0x48, 0x65, 0x6c, 0x6c, 0x6f]⟩), .ok (some ⟨.binary, []⟩), .ok none],
          peer) ∧
      peer.lastClose = some (1002, [0x62, 0x79, 0x65]) ∧
      peer.written = [[0x8a, 0x01, 0x07], [0x88, 0x02, 0x03, 0xea]] :=
  session_delivers plainEnv plainEnv (fun _ => rfl) (fun _ => rfl) [] .client
    [⟨.text, [0x48, 0x65], [[0x6c, 0x6c, 0x6f]], .inl rfl⟩, ⟨.binary, [], [], .inr rfl⟩]
    [.text "He" false, .ping [7], .continuation [0x6c, 0x6c, 0x6f] true, .binary [] true] 999 "bye"
    (by decide)
    (by
      intro m hm _
      simp only [List.mem_cons, List.not_mem_nil, or_false] at hm
      rcases hm with rfl | rfl
      · exact ⟨['H', 'e', 'l', 'l', 'o'], by decide⟩
      · exact ⟨[], rfl⟩)
    (by decide) (by decide) _ rfl (by decide)

end Connection

end Wscpp.Rs
