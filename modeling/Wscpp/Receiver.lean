import Wscpp.Conformance

/-!
# The receive state machine of both connections

wscpp pushes: `read_one_frame` calls `handle_frame`, which invokes callbacks and resets the fragment
state behind them.  ws-rs is pulled: `read_message` runs its loop until there is a message, an end
or an error to return, and resets the fragment state before it delivers.  On frames that pass the
check of the header and have a payload, with no extension in use, they are one machine.

The machine is `respond`: what a frame does to the message under way and what comes out, a message,
a pong, the echo of a close or a failure; `serve` runs it over a sequence of frames until the
connection is closed.  `Cpp.run_serve` and `Rs.Connection.run_serve` show that either connection
runs it, however its fields are laid out; `receivers_agree` puts the two together.

A frame without payload is left out: wscpp shows its handler the payload of an earlier one
(`Wscpp.Cpp.Receive`), and ws-rs completes it with the next byte only.
-/

namespace Wscpp

open Words Utf8

open Cpp (Reply)

/-! ## The machine -/

/-- What a frame brings about: the reply and the message under way afterwards, which is nothing when
the connection is closed. -/
def respond (a : Assembly) (op : Opcode) (fin : Bool) (payload : List UInt8) :
    Option Reply × Option Assembly :=
  match op with
  | .ping => (some (.pong payload), some a)
  | .pong => (none, some a)
  | .close => (some (.closed (Cpp.Connection.closeStatus payload) (payload.drop 2)), none)
  | op =>
      match a.step ⟨op, fin, payload⟩ with
      | none => (some (.failed 1002 (Cpp.misplaced op)), none)
      | some (a, none) => (none, some a)
      | some (a, some m) =>
          if m.1 == .text && !isValidUtf8 .little m.2 then
            (some (.failed 1007 "Invalid UTF-8 in text frame"), none)
          else (some (.message m.1 m.2), some a)

/-- The connection is closed exactly with a reply that ends it. -/
lemma respond_cases (a : Assembly) (op : Opcode) (fin : Bool) (payload : List UInt8) :
    (∃ a', respond a op fin payload = (none, some a')) ∨
      (∃ bs a', respond a op fin payload = (some (.pong bs), some a')) ∨
      (∃ mop bs a', respond a op fin payload = (some (.message mop bs), some a')) ∨
      (∃ code reason, respond a op fin payload = (some (.closed code reason), none)) ∨
      ∃ code reason, respond a op fin payload = (some (.failed code reason), none) := by
  unfold respond
  split
  · simp
  · simp
  · simp
  · split
    · simp
    · simp
    · split_ifs <;> simp

/-- The opcode of a frame that has a known one. -/
def WireFrame.opcode (f : WireFrame) : Opcode := (Opcode.fromU8 f.op).getD .pong

/-- The machine over a sequence of frames. -/
def serve : Assembly → List WireFrame → List Reply × Option Assembly
  | a, [] => ([], some a)
  | a, f :: fs =>
      match respond a f.opcode f.fin f.payload with
      | (reply, none) => (reply.toList, none)
      | (reply, some a) => (reply.toList ++ (serve a fs).1, (serve a fs).2)

/-- A frame that either connection can take: it passes the check of the header for a receiver of the
role without an extension, and has a payload that fits. -/
structure Servable (p : Cpp.Platform) (e : Rs.Env) (role : Role) extends WireFrame where
  header : headerOk role false toWireFrame = true
  payload_ne : payload ≠ []
  fits : payload.length < 2 ^ (p.bits - 1)
  slice : e.Slice payload

lemma fromU8_opcode {role : Role} {f : WireFrame} (h : headerOk role false f = true) :
    Opcode.fromU8 f.op = some f.opcode ∧ f.op = f.opcode.toU8 ∧ f.rsv1 = false := by
  simp only [headerOk, reservedOk, Bool.and_eq_true, Bool.not_eq_true', Bool.false_and,
    Bool.or_false] at h
  obtain ⟨⟨hknown, -, hrsv⟩, -⟩ := h
  obtain ⟨op, hop⟩ := Option.isSome_iff_exists.mp hknown
  have hopcode : f.opcode = op := by simp [WireFrame.opcode, hop]
  rw [hopcode]
  exact ⟨hop, Opcode.fromU8_eq_some.mp hop, hrsv⟩

/-! ## wscpp -/

namespace Cpp

open Connection

variable {p : Platform} {role : Role} {c : Connection} {a : Assembly} {buffer rest : List UInt8}

/-- The byte order of the host does not show in the check of a text. -/
lemma isValidUtf8_host (host : Endian) : isValidUtf8 host = Wscpp.isValidUtf8 .little := by
  funext data
  rw [Bool.eq_iff_iff, isValidUtf8, isValidUtf8_iff, isValidUtf8_iff]

lemma Reply.filterMap_frame?_toList (reply : Option Reply) :
    reply.toList.filterMap Reply.frame? = (reply.bind Reply.frame?).toList := by
  cases reply with
  | none => rfl
  | some r => cases hr : r.frame? <;> simp [hr]

/-- The machine of a session is the one here. -/
lemma answer_eq (a : Assembly) (data : List UInt8) (f : InFrame p) :
    answer a data f = respond a f.op f.fin data := by
  have hcheck := isValidUtf8_host p.host
  unfold answer
  generalize isValidUtf8 p.host = check at hcheck ⊢
  subst hcheck
  cases f.op <;> rfl

/-- **One frame**, read and handled. -/
lemma readOneFrame_respond (hw : ∀ i, p.write i = true) {f : WireFrame}
    (h : c.Serving role a buffer) (hheader : headerOk role false f = true) (hne : f.payload ≠ [])
    (hfits : f.payload.length < 2 ^ (p.bits - 1)) (hin : c.input = f.encode ++ rest) :
    Answered p role c (readOneFrame p c).1 (respond a f.opcode f.fin f.payload) f.payload rest := by
  obtain ⟨-, hop, hrsv⟩ := fromU8_opcode hheader
  have hgood := (headerFailure_eq_none_iff p c f (maskedWith f.key f.payload ++ rest)).mpr
    (by rw [h.role_eq, h.deflate, Bool.and_false]; exact hheader)
  have hdata : bufferAfter c.payloadBuffer f.payload = f.payload :=
    bufferAfter_eq_iff.mpr fun hnil => absurd hnil hne
  have hread : (c.withFrame f rest).Serving role a f.payload := by
    refine ⟨h.live.congr rfl rfl rfl rfl, h.role_eq, h.deflate, ?_, hdata, h.writes⟩
    have hold := h.holding
    cases a <;> exact hold
  let g : InFrame p := ⟨f.opcode, f.fin, Key.zero, f.payload, hfits⟩
  have hanswered := handleFrame_answered hw (f := g) hread hop rfl hrsv
  rw [answer_eq] at hanswered
  rw [readOneFrame_of_valid p h.live.isOpen hin hfits hgood]
  exact ⟨hanswered.input, hanswered.events, hanswered.wire, hanswered.next⟩

/-- **The connection runs the machine**: its callbacks, the frames it writes, and whether it is
open. -/
lemma run_serve (hw : ∀ i, p.write i = true) (fs : List WireFrame)
    (hfs : ∀ f ∈ fs, headerOk role false f = true ∧ f.payload ≠ [] ∧
      f.payload.length < 2 ^ (p.bits - 1))
    (h : c.Serving role a buffer) (hin : c.input = fs.flatMap WireFrame.encode ++ rest) :
    (readFrames p fs.length c).events = c.events ++ (serve a fs).1.flatMap Reply.events ∧
      (readFrames p fs.length c).wire = c.wire ++
        framesBytes p role c.wire.length ((serve a fs).1.filterMap Reply.frame?) ∧
      (readFrames p fs.length c).isOpen = (serve a fs).2.isSome := by
  induction fs generalizing c a buffer with
  | nil => simp [readFrames, serve, framesBytes, h.live.isOpen]
  | cons f fs ih =>
      rw [List.flatMap_cons, List.append_assoc] at hin
      rw [List.forall_mem_cons] at hfs
      obtain ⟨⟨hheader, hne, hfits⟩, hfs⟩ := hfs
      have hone := readOneFrame_respond hw h hheader hne hfits hin
      rw [List.length_cons, readFrames, serve]
      generalize (readOneFrame p c).1 = c' at hone
      generalize respond a f.opcode f.fin f.payload = r at hone
      obtain ⟨reply, next⟩ := r
      obtain ⟨hinput, hevents, hwire, hnext⟩ := hone
      have hframes := Reply.filterMap_frame?_toList reply
      cases next with
      | none =>
          rw [readFrames_of_closed hnext, hevents, hwire]
          simp only [hframes, true_and]
          exact hnext
      | some a' =>
          obtain ⟨ihevents, ihwire, ihopen⟩ := ih hfs hnext hinput
          rw [ihevents, ihwire, ihopen, hevents, hwire]
          simp only [List.flatMap_append, List.filterMap_append, hframes, framesBytes_append,
            List.append_assoc, List.length_append, true_and, and_true]
          simp [framesBytes]

end Cpp

/-! ## ws-rs -/

namespace Rs

/-- The byte strings of a sequence of frames, the first of them the `i`-th. -/
def framesBytes (e : Env) (role : Role) (i : ℕ) (frames : List (Opcode × List UInt8)) :
    List (List UInt8) :=
  frames.mapIdx fun j frame => frameBytes e role (i + j) frame.1 frame.2 true

lemma framesBytes_append (e : Env) (role : Role) (i : ℕ) (fs gs : List (Opcode × List UInt8)) :
    framesBytes e role i (fs ++ gs) =
      framesBytes e role i fs ++ framesBytes e role (i + fs.length) gs := by
  simp [framesBytes, List.mapIdx_append, Nat.add_comm, Nat.add_left_comm]

lemma framesBytes_onto (e : Env) (role : Role) (out : List (List UInt8))
    (fs gs : List (Opcode × List UInt8)) :
    out ++ framesBytes e role out.length fs ++
        framesBytes e role (out ++ framesBytes e role out.length fs).length gs =
      out ++ framesBytes e role out.length (fs ++ gs) := by
  have hlen : (out ++ framesBytes e role out.length fs).length = out.length + fs.length := by
    simp [framesBytes]
  rw [hlen, framesBytes_append, List.append_assoc]

namespace Connection

/-- How a turn of `read_message` ends for a reply: with a message, on to the next frame, with an
end, or with an error. -/
def Returned : Option Reply → Option (Except Error (Option Message)) → Prop
  | some (.message op payload), r => r = some (.ok (some ⟨op, payload⟩))
  | some (.closed _ _), r => r = some (.ok none)
  | some (.failed _ _), r => ∃ err, r = some (.error err)
  | _, r => r = none

/-- What one reply does to the connection. -/
structure Answered (e : Env) (role : Role) (out : List (List UInt8)) (rest : List UInt8)
    (t : Connection × Option (Except Error (Option Message)))
    (r : Option Reply × Option Assembly) : Prop where
  returned : Returned r.1 t.2
  written : t.1.written = out ++ framesBytes e role out.length (r.1.bind Reply.frame?).toList
  next : match r.2 with
    | none => t.1.isOpen = false
    | some a =>
        Receiving role t.1 a
          (out ++ framesBytes e role out.length (r.1.bind Reply.frame?).toList) rest

variable {e : Env} {role : Role} {c : Connection} {a : Assembly} {out : List (List UInt8)}
  {rest : List UInt8}

lemma Receiving.outFrame_close (h : Receiving role c a out rest) (payload : List UInt8) :
    outFrame e c .close payload true false = frameBytes e role out.length .close payload true := by
  rw [outFrame, mask, h.role_eq, h.writes, frameBytes]

lemma answered_failure (hw : ∀ i, e.write i = .done) (h : Receiving role c a out rest)
    {code : UInt16} (hcode : sanitizeCloseCode code = code) (reason : String) (err : Error) :
    Answered e role out rest ((close e c code reason).1, some (.error err))
      (some (.failed code reason), none) := by
  rw [close, hcode, sendClose_done e (hw _), h.outFrame_close]
  refine ⟨⟨err, rfl⟩, ?_, rfl⟩
  simp [sent, h.written, framesBytes, Reply.frame?]

/-- A complete message is delivered, or fails on its text. -/
lemma answered_deliver (hw : ∀ i, e.write i = .done) (h : Receiving role c a out rest)
    (op : Opcode) (payload : List UInt8) :
    Answered e role out rest (finish (deliverMessage e c op payload false) some)
      (if op == .text && !Wscpp.isValidUtf8 .little payload then
        (some (.failed 1007 "Invalid UTF-8 in text frame"), none)
      else (some (.message op payload), some a)) := by
  rw [deliverMessage, if_neg (by simp), deliverPlain, isValidUtf8]
  split_ifs with hbad
  · have hcode : sanitizeCloseCode 1007 = 1007 := by decide
    have hfail := answered_failure hw h hcode "Invalid UTF-8 in text frame"
      (.protocol "invalid UTF-8 in text frame")
    rw [close, sendClose_done e (hw _)] at hfail ⊢
    exact hfail
  · refine ⟨rfl, ?_, ?_⟩
    · simp [finish, h.written, framesBytes, Reply.frame?]
    · simpa [finish, framesBytes, Reply.frame?] using h

lemma answered_silent (h : Receiving role c a out rest) :
    Answered e role out rest (c, none) (none, some a) := by
  refine ⟨rfl, ?_, ?_⟩
  · simpa [framesBytes] using h.written
  · simpa [framesBytes] using h

lemma sanitizeCloseCode_1002 : sanitizeCloseCode 1002 = 1002 := by decide

/-- **A data frame** does to the reader what it does to the machine. -/
lemma handleFrame_data_respond (hw : ∀ i, e.write i = .done) (h : Receiving role c a out rest)
    {frame : Frame} {op : Opcode} (hop : frame.header.opcode = op) (hctl : op.isControl = false)
    (hrsv : frame.header.rsv1 = false) :
    Answered e role out rest (handleFrame e c frame)
      (match a.step ⟨op, frame.header.fin, frame.payload⟩ with
      | none => (some (.failed 1002 (Cpp.misplaced op)), none)
      | some (a, none) => (none, some a)
      | some (a, some m) =>
          if m.1 == .text && !Wscpp.isValidUtf8 .little m.2 then
            (some (.failed 1007 "Invalid UTF-8 in text frame"), none)
          else (some (.message m.1 m.2), some a)) := by
  have hfrag := h.fragment
  by_cases hcont : op = .continuation
  · subst hcont
    have hhandle : handleFrame e c frame = if !c.fragment.active then
          finish (failProtocol (α := Message) e c "Unexpected continuation frame") some
        else if frame.header.fin then
          finish (deliverMessage e { c with fragment := .reset } c.fragment.opcode
            (c.fragment.buffer ++ frame.payload) c.fragment.compressed) some
        else
          ({ c with
             fragment := { c.fragment with buffer := c.fragment.buffer ++ frame.payload } },
            none) := by
      rw [handleFrame, hop]
    rw [hhandle, hfrag]
    cases a with
    | idle =>
        -- nothing to continue
        exact answered_failure hw h sanitizeCloseCode_1002 "Unexpected continuation frame" _
    | inside mop buffer =>
        simp only [fragmentOf, Bool.not_true, Bool.false_eq_true, if_false, Assembly.step, if_true]
        cases frame.header.fin with
        | false => exact answered_silent (h.withFragment (.inside mop (buffer ++ frame.payload)))
        | true => exact answered_deliver hw (h.withFragment .idle) mop (buffer ++ frame.payload)
  · rw [handleFrame_data hop hctl hcont, handleData, hfrag, hrsv]
    cases a with
    | idle =>
        simp only [fragmentOf, FragmentState.reset, Bool.false_eq_true, if_false, Assembly.step,
          hcont]
        cases frame.header.fin with
        | false => exact answered_silent (h.withFragment (.inside op frame.payload))
        | true => exact answered_deliver hw h op frame.payload
    | inside mop buffer =>
        -- a message under way, and no continuation of it
        simp only [fragmentOf, if_true, Assembly.step, hcont, if_false, Cpp.misplaced]
        exact answered_failure hw h sanitizeCloseCode_1002
          "New data frame before fragmented message completed" _

lemma parseClosePayload_fst (payload : List UInt8) :
    (parseClosePayload payload).1 = Cpp.Connection.closeStatus payload := by
  match payload with
  | [] => rfl
  | [_] => rfl
  | b0 :: b1 :: _ => rfl

/-- **A frame** does to the reader what it does to the machine. -/
lemma handleFrame_respond (hw : ∀ i, e.write i = .done) (h : Receiving role c a out rest)
    {frame : Frame} (hrsv : frame.header.rsv1 = false) :
    Answered e role out rest (handleFrame e c frame)
      (respond a frame.header.opcode frame.header.fin frame.payload) := by
  cases hop : frame.header.opcode with
  | ping =>
      have hframe : outFrame e c .pong frame.payload true false =
          frameBytes e role out.length .pong frame.payload true := by
        rw [outFrame, mask, h.role_eq, h.writes, frameBytes]
      have hhandle : handleFrame e c frame =
          (c.sent (frameBytes e role out.length .pong frame.payload true), none) := by
        rw [handleFrame, hop]
        simp only [sendPong, sendFrame_done e (hw _), hframe]
      rw [hhandle]
      refine ⟨rfl, ?_, ?_⟩
      · simp [sent, h.written, framesBytes, Reply.frame?, respond]
      · refine ⟨h.isOpen, h.role_eq, h.deflate, ⟨h.frames.header, h.frames.pending,
          h.frames.noErrors⟩, h.fragment, ?_, ?_⟩
        · simp [sent, h.written, framesBytes, Reply.frame?, respond]
        · simp [sent, h.writes, framesBytes, Reply.frame?, respond]
  | pong =>
      have hhandle : handleFrame e c frame = (c, none) := by rw [handleFrame, hop]
      rw [hhandle]
      exact answered_silent h
  | close =>
      rw [handleFrame, hop]
      simp only [handleCloseFrame, sendClose_done e (hw _), finish, Except.map]
      refine ⟨rfl, ?_, rfl⟩
      -- the echo has the code of the frame and no reason
      have hcode := parseClosePayload_fst frame.payload
      simp only [sent, outFrame, mask, h.role_eq, h.writes, h.written, hcode, List.append_nil]
      rfl
  | continuation => exact handleFrame_data_respond hw h hop rfl hrsv
  | text => exact handleFrame_data_respond hw h hop rfl hrsv
  | binary => exact handleFrame_data_respond hw h hop rfl hrsv

/-- **One turn** of `read_message`. -/
lemma turn_respond (hw : ∀ i, e.write i = .done) {f : WireFrame}
    (h : Receiving role c a out (f.encode ++ rest)) (hheader : headerOk role false f = true)
    (hne : f.payload ≠ []) (hslice : e.Slice f.payload) :
    Answered e role out rest (turn e c) (respond a f.opcode f.fin f.payload) := by
  obtain ⟨hop, -, hrsv⟩ := fromU8_opcode hheader
  obtain ⟨c₁, hat, ⟨q, rs, input, rfl⟩, hread⟩ :=
    readFrame_of_frame e h.isOpen h.frames hop hslice (.inl hne)
  have h₁ : Receiving role (c.withRead q rs input) a out rest :=
    ⟨h.isOpen, h.role_eq, h.deflate, hat, h.fragment, h.written, h.writes⟩
  have hvalid := (validateIncoming_iff role false c.parser.header.maskingKey hop).mpr hheader
  rw [h.role_eq, h.deflate, verdict, frameOf, hvalid] at hread
  rw [turn, hread]
  exact handleFrame_respond hw h₁ hrsv

variable (e) in
/-- Calls of `read_message`, one after the other, until one returns an end or an error, as far as
they get in so many turns of its loop: the messages returned and the connection. -/
def receive : ℕ → Connection → List Message × Connection
  | 0, c => ([], c)
  | n + 1, c =>
      match turn e c with
      | (c, none) => receive n c
      | (c, some (.ok (some m))) => (m :: (receive n c).1, (receive n c).2)
      | (c, some _) => ([], c)

/-- The messages are what that many calls of `read_message` return. -/
lemma readMessages_receive (n : ℕ) (c : Connection) :
    (readMessages e (receive e n c).1.length c).1 =
      (receive e n c).1.map fun m => .ok (some m) := by
  induction n generalizing c with
  | zero => rfl
  | succ n ih =>
      rcases hturn : turn e c with ⟨c', r⟩
      match r, hturn with
      | none, hturn =>
          have hreceive : receive e (n + 1) c = receive e n c' := by rw [receive, hturn]
          rw [hreceive]
          cases hlen : (receive e n c').1.length with
          | zero =>
              have hnil := List.eq_nil_of_length_eq_zero hlen
              rw [hnil]
              rfl
          | succ k => rw [readMessages_of_continue hturn, ← hlen, ih c']
      | some (.ok (some m)), hturn =>
          have hreceive : receive e (n + 1) c =
              (m :: (receive e n c').1, (receive e n c').2) := by rw [receive, hturn]
          rw [hreceive, List.length_cons, readMessages_of_result hturn, ih c']
          rfl
      | some (.ok none), hturn =>
          have hreceive : receive e (n + 1) c = ([], c') := by rw [receive, hturn]
          rw [hreceive]
          rfl
      | some (.error err), hturn =>
          have hreceive : receive e (n + 1) c = ([], c') := by rw [receive, hturn]
          rw [hreceive]
          rfl

/-- **The connection runs the machine**: the messages it returns, the frames it writes, and whether
it is open. -/
lemma run_serve (hw : ∀ i, e.write i = .done) (fs : List WireFrame)
    (hfs : ∀ f ∈ fs, headerOk role false f = true ∧ f.payload ≠ [] ∧ e.Slice f.payload)
    (h : Receiving role c a out (fs.flatMap WireFrame.encode ++ rest)) :
    (receive e fs.length c).1 =
        ((serve a fs).1.filterMap Reply.message?).map (fun m => ⟨m.1, m.2⟩) ∧
      (receive e fs.length c).2.written =
        out ++ framesBytes e role out.length ((serve a fs).1.filterMap Reply.frame?) ∧
      (receive e fs.length c).2.isOpen = (serve a fs).2.isSome := by
  induction fs generalizing c a out with
  | nil => exact ⟨rfl, by simpa [framesBytes, serve, receive] using h.written, h.isOpen⟩
  | cons f fs ih =>
      rw [List.flatMap_cons, List.append_assoc] at h
      rw [List.forall_mem_cons] at hfs
      obtain ⟨⟨hheader, hne, hslice⟩, hfs⟩ := hfs
      have hone := turn_respond hw h hheader hne hslice
      rw [List.length_cons, receive, serve]
      generalize turn e c = t at hone
      obtain ⟨c', result⟩ := t
      obtain ⟨hreturned, hwritten, hnext⟩ := hone
      -- a reply that does not end the session leaves the rest of the frames to the next turns
      rcases respond_cases a f.opcode f.fin f.payload with ⟨a', hr⟩ | ⟨bs, a', hr⟩ |
        ⟨mop, bs, a', hr⟩ | ⟨code, reason, hr⟩ | ⟨code, reason, hr⟩ <;>
        rw [hr] at hreturned hwritten hnext ⊢ <;> simp only [Returned] at hreturned
      · subst hreturned
        obtain ⟨ihmessages, ihwritten, ihopen⟩ := ih hfs hnext
        refine ⟨ihmessages, ?_, ihopen⟩
        rw [ihwritten, framesBytes_onto]
        rfl
      · subst hreturned
        obtain ⟨ihmessages, ihwritten, ihopen⟩ := ih hfs hnext
        refine ⟨ihmessages, ?_, ihopen⟩
        rw [ihwritten, framesBytes_onto]
        rfl
      · subst hreturned
        obtain ⟨ihmessages, ihwritten, ihopen⟩ := ih hfs hnext
        refine ⟨congrArg (⟨mop, bs⟩ :: ·) ihmessages, ?_, ihopen⟩
        show (receive e fs.length c').2.written = _
        rw [ihwritten, framesBytes_onto]
        rfl
      · subst hreturned
        exact ⟨rfl, hwritten, hnext⟩
      · obtain ⟨err, rfl⟩ := hreturned
        exact ⟨rfl, hwritten, hnext⟩

end Connection

end Rs

/-! ## Both -/

/-- **One receive state machine.**  Whatever frames arrive that pass the check of the header and
have a payload, in whatever order, and however the bytes are cut into reads: both connections
deliver the same messages, write the same frames, but for the masking keys, and are open or closed
alike at the end.  The messages of ws-rs are what as many calls of `read_message` return. -/
theorem receivers_agree (p : Cpp.Platform) (e : Rs.Env) (hp : ∀ i, p.write i = true)
    (he : ∀ i, e.write i = .done) (role : Role) (frames : List (Servable p e role))
    (rest : List UInt8) (input : List Rs.ReadEvent) (herrors : Rs.readErrors input = 0)
    (hbytes : Rs.inputBytes input = frames.flatMap (·.encode) ++ rest) :
    let c := Cpp.readFrames p frames.length
      (Cpp.Connection.new role false (frames.flatMap (·.encode) ++ rest))
    let r := Rs.Connection.receive e frames.length (Rs.Connection.new input role false)
    c.events.filterMap Cpp.Event.message? = r.1.map (fun m => (m.payload, m.opcode.toU8)) ∧
      (∃ written, c.wire = Cpp.framesBytes p role 0 written ∧
        r.2.written = Rs.framesBytes e role 0 written) ∧
      c.isOpen = r.2.isOpen ∧
      (Rs.Connection.readMessages e r.1.length (Rs.Connection.new input role false)).1 =
        r.1.map fun m => .ok (some m) := by
  intro c r
  have hflat : frames.flatMap (·.encode) ++ rest =
      (frames.map Servable.toWireFrame).flatMap WireFrame.encode ++ rest := by
    rw [List.flatMap_map]
  have hservable : ∀ f ∈ frames.map Servable.toWireFrame, headerOk role false f = true ∧
      f.payload ≠ [] ∧ f.payload.length < 2 ^ (p.bits - 1) ∧ e.Slice f.payload := by
    intro f hf
    obtain ⟨f, -, rfl⟩ := List.mem_map.mp hf
    exact ⟨f.header, f.payload_ne, f.fits, f.slice⟩
  have hcpp : (Cpp.Connection.new role false (frames.flatMap (·.encode) ++ rest)).Serving role
      .idle [] := ⟨⟨rfl, rfl, rfl, rfl⟩, rfl, rfl, rfl, rfl, rfl⟩
  have hrs : Rs.Connection.Receiving role (Rs.Connection.new input role false) .idle []
      ((frames.map Servable.toWireFrame).flatMap WireFrame.encode ++ rest) :=
    ⟨rfl, rfl, rfl, ⟨rfl, hbytes.trans hflat, herrors⟩, rfl, rfl, rfl⟩
  -- both run the one machine on the same frames
  obtain ⟨hevents, hwire, hopen⟩ := Cpp.run_serve hp (frames.map Servable.toWireFrame)
    (fun f hf => ⟨(hservable f hf).1, (hservable f hf).2.1, (hservable f hf).2.2.1⟩) hcpp hflat
  obtain ⟨hmessages, hwritten, hopen'⟩ := Rs.Connection.run_serve he
    (frames.map Servable.toWireFrame)
    (fun f hf => ⟨(hservable f hf).1, (hservable f hf).2.1, (hservable f hf).2.2.2⟩) hrs
  rw [List.length_map] at hevents hwire hopen hmessages hwritten hopen'
  refine ⟨?_, ⟨_, hwire, hwritten⟩, hopen.trans hopen'.symm, Rs.Connection.readMessages_receive _ _⟩
  calc c.events.filterMap Cpp.Event.message?
      = ((serve .idle (frames.map Servable.toWireFrame)).1.flatMap Reply.events).filterMap
          Cpp.Event.message? := by rw [hevents]; rfl
    _ = ((serve .idle (frames.map Servable.toWireFrame)).1.filterMap Reply.message?).map
          fun m => (m.2, m.1.toU8) := Cpp.filterMap_message?_events _
    _ = r.1.map fun m => (m.payload, m.opcode.toU8) := by rw [hmessages, List.map_map]; rfl

lemma length_shortPing_lt : ([0x07] : List UInt8).length < 2 ^ 64 := by decide

lemma length_badText_lt : ([0xff] : List UInt8).length < 2 ^ 64 := by decide

/-- A ping to a server. -/
def shortPing : WireFrame :=
  .emitted true false .ping (some ⟨1, 2, 3, 4⟩) [0x07] length_shortPing_lt

/-- A text that is not UTF-8. -/
def badText : WireFrame :=
  .emitted true false .text (some ⟨1, 2, 3, 4⟩) [0xff] length_badText_lt

/-- What a server needs of a frame. -/
def Plain (f : WireFrame) : Prop :=
  headerOk .server false f = true ∧ f.payload ≠ [] ∧
    f.payload.length < 2 ^ (Cpp.plainPlatform.bits - 1) ∧ Rs.Connection.plainEnv.Slice f.payload

lemma plain_halfText : Plain halfText := by
  unfold Plain
  decide +kernel

lemma plain_otherHalf : Plain otherHalf := by
  unfold Plain
  decide +kernel

lemma plain_shortPing : Plain shortPing := by
  unfold Plain
  decide +kernel

lemma plain_badText : Plain badText := by
  unfold Plain
  decide +kernel

/-- A frame that either server can take. -/
def servable (f : WireFrame) (h : Plain f) :
    Servable Cpp.plainPlatform Rs.Connection.plainEnv .server :=
  ⟨f, h.1, h.2.1, h.2.2.1, h.2.2.2⟩

/-- `Hi` in two halves, a ping between them, and a text that is not UTF-8 with another ping behind
it. -/
def mixedFrames : List (Servable Cpp.plainPlatform Rs.Connection.plainEnv .server) :=
  [servable halfText plain_halfText, servable shortPing plain_shortPing,
    servable otherHalf plain_otherHalf, servable badText plain_badText,
    servable shortPing plain_shortPing]

/-- They arrive in one read. -/
def mixedInput : List Rs.ReadEvent :=
  [.data ⟨mixedFrames.flatMap (·.encode) ++ [], by decide +kernel, by decide +kernel⟩]

lemma inputBytes_mixedInput :
    Rs.inputBytes mixedInput = mixedFrames.flatMap (·.encode) ++ [] := by
  rw [mixedInput, Rs.inputBytes, Rs.inputBytes, List.append_nil]

/-- Both deliver `Hi`, answer the first ping and fail on the text; the last frame is not read. -/
theorem receivers_agree_mixed :
    let c := Cpp.readFrames Cpp.plainPlatform mixedFrames.length
      (Cpp.Connection.new .server false (mixedFrames.flatMap (·.encode) ++ []))
    let r := Rs.Connection.receive Rs.Connection.plainEnv mixedFrames.length
      (Rs.Connection.new mixedInput .server false)
    c.events.filterMap Cpp.Event.message? = [([0x48, 0x69], 0x1)] ∧
      r.1.map (fun m => (m.payload, m.opcode.toU8)) = [([0x48, 0x69], 0x1)] ∧
      c.wire.head? = some [0x8a, 0x01, 0x07] ∧ c.isOpen = false ∧ r.2.isOpen = false := by
  obtain ⟨hmessages, -, hopen, -⟩ := receivers_agree Cpp.plainPlatform Rs.Connection.plainEnv
    (fun _ => rfl) (fun _ => rfl) .server mixedFrames [] mixedInput (by rw [mixedInput]; rfl)
    inputBytes_mixedInput
  have hc : (Cpp.readFrames Cpp.plainPlatform mixedFrames.length (Cpp.Connection.new .server false
      (mixedFrames.flatMap (·.encode) ++ []))).events.filterMap Cpp.Event.message? =
      [([0x48, 0x69], 0x1)] := by decide +kernel
  have hclosed : (Cpp.readFrames Cpp.plainPlatform mixedFrames.length (Cpp.Connection.new .server
      false (mixedFrames.flatMap (·.encode) ++ []))).isOpen = false := by decide +kernel
  have hpong : (Cpp.readFrames Cpp.plainPlatform mixedFrames.length (Cpp.Connection.new .server
      false (mixedFrames.flatMap (·.encode) ++ []))).wire.head? = some [0x8a, 0x01, 0x07] := by
    decide +kernel
  rw [hc] at hmessages
  rw [hclosed] at hopen
  exact ⟨hc, hmessages.symm, hpong, hclosed, hopen.symm⟩

end Wscpp
