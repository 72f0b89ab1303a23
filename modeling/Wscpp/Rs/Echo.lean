import Wscpp.Link
import Wscpp.Rs.Delivery

/-!
# The echo server

`echo_session` reads messages and sends them back.  On any frames that a server can take, in any
order and in any cuts, it writes what the receive machine (`Wscpp.Receiver`) writes, with each
message in the place where it is complete (`echoSession_serve`).  All that it writes can be taken by
a client, and makes there the messages that went out (`echoed_serve`); so what a client sends comes
back to it (`echo_returns`), until it closes or breaks a rule, whatever that rule is.

No extension is negotiated here, and the writes succeed.  With permessage-deflate the echo of a
message can be one that the client does not get back as it was (`Wscpp.Deflate`): it is compressed
whether or not the client's was.
-/

namespace Wscpp

open Words Utf8

open Cpp (Reply)

/-! ## What comes back -/

/-- The frame that `echo_session` writes for a reply: a message goes back as one frame. -/
def Cpp.Reply.echo? : Reply → Option (Opcode × List UInt8)
  | message op payload => some (op, payload)
  | r => r.frame?

/-- A message under way is text or binary, and not empty. -/
def Assembly.Genuine : Assembly → Prop
  | idle => True
  | inside op buffer => (op = .text ∨ op = .binary) ∧ buffer ≠ []

/-- What has been put together. -/
def Assembly.buffer : Assembly → List UInt8
  | idle => []
  | inside _ buffer => buffer

/-- What a frame with a payload brings about. -/
structure Sane (a : Assembly) (payload : List UInt8) (r : Option Reply × Option Assembly) :
    Prop where
  genuine : ∀ a', r.2 = some a' → a'.Genuine ∧ a'.buffer.length ≤ (a.buffer ++ payload).length
  message : ∀ op bs, r.1 = some (.message op bs) → (op = .text ∨ op = .binary) ∧ bs ≠ [] ∧
    bs.length ≤ (a.buffer ++ payload).length ∧ (op = .text → isValidUtf8 .little bs = true)
  pong : ∀ bs, r.1 = some (.pong bs) → bs = payload
  failed : ∀ code reason, r.1 = some (.failed code reason) → (strBytes reason).length ≤ 123

lemma Assembly.step_genuine {a a' : Assembly} (ha : a.Genuine) {op : Opcode} {fin : Bool}
    {payload : List UInt8} {m : Option (Opcode × List UInt8)} (hctl : op.isControl = false)
    (hne : payload ≠ []) (h : a.step ⟨op, fin, payload⟩ = some (a', m)) :
    (a'.Genuine ∧ a'.buffer.length ≤ (a.buffer ++ payload).length) ∧
      ∀ x, m = some x → (x.1 = .text ∨ x.1 = .binary) ∧ x.2 ≠ [] ∧
        x.2.length ≤ (a.buffer ++ payload).length := by
  cases a with
  | idle =>
      rw [step] at h
      split_ifs at h with hcont hfin
      · simp only [Option.some.injEq, Prod.mk.injEq] at h
        obtain ⟨rfl, rfl⟩ := h
        refine ⟨⟨trivial, by simp [buffer]⟩, fun x hx => ?_⟩
        obtain rfl := Option.some.inj hx
        exact ⟨by cases op <;> simp_all [Opcode.isControl], hne, by simp [buffer]⟩
      · simp only [Option.some.injEq, Prod.mk.injEq] at h
        obtain ⟨rfl, rfl⟩ := h
        refine ⟨⟨⟨by cases op <;> simp_all [Opcode.isControl], hne⟩, by simp [buffer]⟩, by simp⟩
  | inside op' old =>
      rw [step] at h
      split_ifs at h with hcont hfin
      · simp only [Option.some.injEq, Prod.mk.injEq] at h
        obtain ⟨rfl, rfl⟩ := h
        refine ⟨⟨trivial, by simp [buffer]⟩, fun x hx => ?_⟩
        obtain rfl := Option.some.inj hx
        exact ⟨ha.1, by simp [hne], by simp [buffer]⟩
      · simp only [Option.some.injEq, Prod.mk.injEq] at h
        obtain ⟨rfl, rfl⟩ := h
        exact ⟨⟨⟨ha.1, by simp [hne]⟩, by simp [buffer]⟩, by simp⟩

lemma respond_sane {a : Assembly} (ha : a.Genuine) (op : Opcode) (fin : Bool)
    {payload : List UInt8} (hne : payload ≠ []) : Sane a payload (respond a op fin payload) := by
  cases hctl : op.isControl with
  | true =>
      cases op <;> simp [Opcode.isControl] at hctl
      · exact ⟨by simp [respond], by simp [respond], by simp [respond], by simp [respond]⟩
      · exact ⟨by simp [respond, ha], by simp [respond], by simp [respond], by simp [respond]⟩
      · exact ⟨by simp [respond, ha], by simp [respond], by simp [respond], by simp [respond]⟩
  | false =>
      -- the reasons that the reader gives fit a CLOSE frame
      have hmisplaced : (strBytes (Cpp.misplaced op)).length ≤ 123 := by cases op <;> decide
      have hinvalid : (strBytes "Invalid UTF-8 in text frame").length ≤ 123 := by decide
      rcases hstep : a.step ⟨op, fin, payload⟩ with _ | ⟨a', _ | m⟩
      · have hrespond : respond a op fin payload =
            (some (.failed 1002 (Cpp.misplaced op)), none) := by
          cases op <;> simp_all [respond, Opcode.isControl]
        rw [hrespond]
        refine ⟨by simp, by simp, by simp, fun code reason h => ?_⟩
        simp only [Option.some.injEq, Reply.failed.injEq] at h
        rw [← h.2]
        exact hmisplaced
      · have hrespond : respond a op fin payload = (none, some a') := by
          cases op <;> simp_all [respond, Opcode.isControl]
        rw [hrespond]
        obtain ⟨hgenuine, -⟩ := Assembly.step_genuine ha hctl hne hstep
        refine ⟨fun x hx => ?_, by simp, by simp, by simp⟩
        obtain rfl := Option.some.inj hx
        exact hgenuine
      · obtain ⟨hgenuine, hmessage⟩ := Assembly.step_genuine ha hctl hne hstep
        obtain ⟨hop, hnonempty, hlen⟩ := hmessage m rfl
        -- a message is complete: it is delivered, or its text is refused
        by_cases hbad : (m.1 == .text && !isValidUtf8 .little m.2) = true
        · have hrespond : respond a op fin payload =
              (some (.failed 1007 "Invalid UTF-8 in text frame"), none) := by
            cases op <;> simp_all [respond, Opcode.isControl]
          rw [hrespond]
          refine ⟨by simp, by simp, by simp, fun code reason h => ?_⟩
          simp only [Option.some.injEq, Reply.failed.injEq] at h
          rw [← h.2]
          exact hinvalid
        · have hrespond : respond a op fin payload = (some (.message m.1 m.2), some a') := by
            cases op with
            | text | binary | continuation => simp only [respond, hstep, if_neg hbad]
            | close | ping | pong => simp [Opcode.isControl] at hctl
          rw [hrespond]
          refine ⟨fun x hx => ?_, fun op' bs h => ?_, by simp, by simp⟩
          · obtain rfl := Option.some.inj hx
            exact hgenuine
          · simp only [Option.some.injEq, Reply.message.injEq] at h
            obtain ⟨rfl, rfl⟩ := h
            exact ⟨hop, hnonempty, hlen, fun htext => by simpa [htext] using hbad⟩

namespace Rs

namespace Connection

/-! ## The server -/

section Server

variable {e : Env} {role : Role} {c c' : Connection} {a : Assembly} {out : List (List UInt8)}
  {rest : List UInt8}

/-- A turn that goes on is one inside a call of `read_message`. -/
lemma echoSession_of_continue (hopen : c.isOpen = true) (hopen' : c'.isOpen = true)
    (h : turn e c = (c', none)) : echoSession e c = echoSession e c' := by
  have hsame : readMessage e c = readMessage e c' := by rw [readMessage_eq, h]
  rw [echoSession_eq, echoSession_eq e c', hopen, hopen', hsame]
  rfl

lemma echoSession_of_result {r : Except Error (Option Message)} (hopen : c.isOpen = true)
    (h : turn e c = (c', some r)) :
    echoSession e c =
      match r with
      | .error err => (c', .error err)
      | .ok none => (c', .ok ())
      | .ok (some m) =>
          match echoReply e (.error (.protocol "invalid UTF-8")) c' m with
          | (c, .error err) => (c, .error err)
          | (c, .ok ()) => echoSession e c := by
  have hresult : readMessage e c = (c', r) := by rw [readMessage_eq, h]
  rw [echoSession_eq, hopen, hresult]
  rcases r with err | _ | m <;> rfl

/-- The end of the stream ends a call. -/
lemma turn_of_end (h : Receiving role c a out []) :
    ∃ c', turn e c = (c', some (.ok none)) ∧ c'.written = c.written := by
  have hparse : parseAll e c = (c.parser, none, []) := by rw [parseAll, h.frames.pending]; rfl
  have hends := readFrame_cases e h.isOpen
  rw [turn]
  generalize readFrame e c = r at hends ⊢
  cases hends with
  | frame hp _ _ => simp [hparse] at hp
  | invalid hp _ _ => simp [hparse] at hp
  | eof _ => exact ⟨_, rfl, rfl⟩
  | ioError _ hsuffix =>
      have hle := readErrors_le_of_suffix hsuffix
      rw [h.frames.noErrors] at hle
      simp [readErrors] at hle

lemma echoSession_of_end (h : Receiving role c a out []) :
    (echoSession e c).1.written = out ∧ (echoSession e c).2 = .ok () := by
  obtain ⟨c', hturn, hwritten⟩ := turn_of_end (e := e) h
  rw [echoSession_of_result h.isOpen hturn]
  exact ⟨hwritten.trans h.written, rfl⟩

/-- A message goes back. -/
lemma echoReply_message (hw : ∀ i, e.write i = .done) (h : Receiving role c a out rest)
    (failure : Except Error Unit) {op : Opcode} {bs : List UInt8} (hop : op = .text ∨ op = .binary)
    (hvalid : op = .text → Wscpp.isValidUtf8 .little bs = true) :
    ∃ c', echoReply e failure c ⟨op, bs⟩ = (c', .ok ()) ∧
      Receiving role c' a (out ++ [frameBytes e role out.length op bs true]) rest := by
  have hsend : sendDataFrame e c op bs true =
      (c.sent (frameBytes e role out.length op bs true), .ok ()) := by
    rw [sendDataFrame, h.deflate]
    simp only [Bool.false_and, Bool.false_eq_true, if_false]
    rw [sendFrame_done e (hw _), outFrame, mask, h.role_eq, h.writes]
    rfl
  have hnext : Receiving role (c.sent (frameBytes e role out.length op bs true)) a
      (out ++ [frameBytes e role out.length op bs true]) rest :=
    ⟨h.isOpen, h.role_eq, h.deflate, ⟨h.frames.header, h.frames.pending, h.frames.noErrors⟩,
      h.fragment, by simp [sent, h.written], by simp [sent, h.writes]⟩
  refine ⟨_, ?_, hnext⟩
  rcases hop with rfl | rfl
  · have hutf := (isValidUtf8_iff .little bs).mp (hvalid rfl)
    obtain ⟨text, htext, hbytes⟩ := fromUtf8_of_valid hutf
    simp only [echoReply, htext, sendText, hbytes]
    exact hsend
  · simp only [echoReply, sendBinary]
    exact hsend

/-- **What `echo_session` writes**, read from any point of the stream. -/
lemma echoSession_serve (hw : ∀ i, e.write i = .done) (fs : List WireFrame)
    (hfs : ∀ f ∈ fs, headerOk role false f = true ∧ f.payload ≠ [] ∧ e.Slice f.payload)
    (h : Receiving role c a out (fs.flatMap WireFrame.encode)) (ha : a.Genuine) :
    (echoSession e c).1.written =
        out ++ framesBytes e role out.length ((serve a fs).1.filterMap Reply.echo?) ∧
      ((echoSession e c).2 = .ok () ↔ ∀ r ∈ (serve a fs).1, r.fails = false) := by
  induction fs generalizing c a out with
  | nil =>
      obtain ⟨hwritten, hok⟩ := echoSession_of_end (e := e) h
      exact ⟨by simpa [framesBytes, serve] using hwritten, by simp [hok, serve]⟩
  | cons f fs ih =>
      rw [List.flatMap_cons] at h
      rw [List.forall_mem_cons] at hfs
      obtain ⟨⟨hheader, hne, hslice⟩, hfs⟩ := hfs
      have hone := turn_respond hw h hheader hne hslice
      have hsane := respond_sane ha f.opcode f.fin hne
      rw [serve]
      generalize hturn : turn e c = t at hone
      obtain ⟨c', result⟩ := t
      obtain ⟨hreturned, hwritten, hnext⟩ := hone
      -- silence and a PONG go on inside `read_message`, a message comes back to the loop, a CLOSE
      -- or a failure ends it
      rcases respond_cases a f.opcode f.fin f.payload with ⟨a', hr⟩ | ⟨bs, a', hr⟩ |
        ⟨mop, bs, a', hr⟩ | ⟨code, reason, hr⟩ | ⟨code, reason, hr⟩ <;>
        rw [hr] at hreturned hwritten hnext hsane ⊢ <;> simp only [Returned] at hreturned
      · subst hreturned
        rw [echoSession_of_continue h.isOpen hnext.isOpen hturn]
        obtain ⟨ihwritten, ihok⟩ := ih hfs hnext (hsane.genuine a' rfl).1
        refine ⟨?_, ihok⟩
        rw [ihwritten, framesBytes_onto]
        rfl
      · subst hreturned
        rw [echoSession_of_continue h.isOpen hnext.isOpen hturn]
        obtain ⟨ihwritten, ihok⟩ := ih hfs hnext (hsane.genuine a' rfl).1
        refine ⟨?_, by simpa [Reply.fails] using ihok⟩
        rw [ihwritten, framesBytes_onto]
        rfl
      · subst hreturned
        obtain ⟨hop, -, -, hvalid⟩ := hsane.message mop bs rfl
        have hsilent : Receiving role c' a' out (fs.flatMap WireFrame.encode) := by
          simpa [framesBytes, Reply.frame?] using hnext
        -- the message is sent back, and the reader goes on where it was
        obtain ⟨c'', hreply, hback⟩ := echoReply_message hw hsilent
          (.error (.protocol "invalid UTF-8")) hop hvalid
        rw [echoSession_of_result h.isOpen hturn]
        simp only [hreply]
        have hone : out ++ [frameBytes e role out.length mop bs true] =
            out ++ framesBytes e role out.length [(mop, bs)] := by simp [framesBytes]
        rw [hone] at hback
        obtain ⟨ihwritten, ihok⟩ := ih hfs hback (hsane.genuine a' rfl).1
        refine ⟨?_, by simpa [Reply.fails] using ihok⟩
        rw [ihwritten, framesBytes_onto]
        rfl
      · subst hreturned
        rw [echoSession_of_result h.isOpen hturn]
        exact ⟨hwritten, by simp [Reply.fails]⟩
      · obtain ⟨err, rfl⟩ := hreturned
        rw [echoSession_of_result h.isOpen hturn]
        exact ⟨hwritten, by simp [Reply.fails]⟩

end Server

/-! ## The client -/

/-- A frame that comes back. -/
def backFrame (e : Env) (k : ℕ) (op : Opcode) (payload : List UInt8)
    (h : payload.length < 2 ^ 64) : WireFrame :=
  .emitted true false op (keyIf (Role.server == .client) (e.keys k)) payload h

section Client

variable {e peer : Env} {k : ℕ} {op : Opcode} {payload : List UInt8}
  {frames messages : List (Opcode × List UInt8)}

lemma backFrame_takeable (h : payload.length < 2 ^ 64) :
    headerOk .client false (backFrame e k op payload h) = true := by
  have hheader : headerOk (Role.peer .server) false
      (.emitted true false op (keyIf (Role.server == .client) (e.keys k)) payload h) = true :=
    headerOk_emitted h (by simp)
  exact hheader

lemma backFrame_opcode (h : payload.length < 2 ^ 64) :
    (backFrame e k op payload h).opcode = op := by
  show (Opcode.fromU8 op.toU8).getD .pong = op
  rw [Opcode.fromU8_toU8]
  rfl

/-- The frames can be taken by a client, and make the messages there. -/
def Taken (e peer : Env) (k : ℕ) (frames messages : List (Opcode × List UInt8)) : Prop :=
  ∃ ws : List WireFrame,
    (framesBytes e .server k frames).flatten = ws.flatMap WireFrame.encode ∧
    (∀ w ∈ ws, headerOk .client false w = true ∧ w.payload ≠ [] ∧ peer.Slice w.payload) ∧
    (∀ r ∈ (serve .idle ws).1, r.fails = false) ∧
    (serve .idle ws).1.filterMap Reply.message? = messages

/-- A frame in front of others. -/
lemma taken_cons (hne : payload ≠ []) (hslice : peer.Slice payload)
    (h : Taken e peer (k + 1) frames messages) {reply : Option Reply}
    (hrespond : respond .idle op true payload = (reply, some .idle))
    (hfine : ∀ r, reply = some r → r.fails = false) :
    Taken e peer k ((op, payload) :: frames)
      (reply.toList.filterMap Reply.message? ++ messages) := by
  obtain ⟨ws, hbytes, htakeable, hfines, hmessages⟩ := h
  have hlen : payload.length < 2 ^ 64 := lt_trans hslice.lt.1 (by decide)
  have hone : respond .idle (backFrame e k op payload hlen).opcode
      (backFrame e k op payload hlen).fin (backFrame e k op payload hlen).payload =
        (reply, some .idle) := by
    rw [backFrame_opcode]
    exact hrespond
  refine ⟨backFrame e k op payload hlen :: ws, ?_, ?_, ?_, ?_⟩
  · have hrest : framesBytes e .server k ((op, payload) :: frames) =
        frameBytes e .server k op payload true :: framesBytes e .server (k + 1) frames := by
      simp [framesBytes, Nat.add_comm, Nat.add_left_comm]
    rw [hrest, List.flatten_cons, hbytes, List.flatMap_cons]
    rfl
  · rw [List.forall_mem_cons]
    exact ⟨⟨backFrame_takeable hlen, hne, hslice⟩, htakeable⟩
  · rw [serve, hone]
    intro r hr
    rcases List.mem_append.mp hr with hr | hr
    · exact hfine r (Option.mem_toList.mp hr)
    · exact hfines r hr
  · rw [serve, hone]
    simp only [List.filterMap_append, hmessages]

/-- A CLOSE frame ends it. -/
lemma taken_close (hne : payload ≠ []) (hslice : peer.Slice payload) :
    Taken e peer k [(.close, payload)] [] := by
  have hlen : payload.length < 2 ^ 64 := lt_trans hslice.lt.1 (by decide)
  have hone : (serve .idle [backFrame e k .close payload hlen]).1 =
      [.closed (Cpp.Connection.closeStatus payload) (payload.drop 2)] := by
    rw [serve, backFrame_opcode]
    rfl
  refine ⟨[backFrame e k .close payload hlen], ?_, ?_, ?_, ?_⟩
  · simp [framesBytes, frameBytes, backFrame, WireFrame.encode, WireFrame.emitted]
  · rw [List.forall_mem_singleton]
    exact ⟨backFrame_takeable hlen, hne, hslice⟩
  · rw [hone, List.forall_mem_singleton]
    rfl
  · rw [hone]
    rfl

end Client

section Back

variable {e peer : Env} {role : Role} {c : Connection} {a : Assembly} {out : List (List UInt8)}

lemma slice_of_le {bs cs : List UInt8} (hle : bs.length ≤ cs.length) (h : peer.Slice cs) :
    peer.Slice bs := lt_of_le_of_lt hle h

/-- The payload of a CLOSE frame is short. -/
lemma slice_close (hbits : 16 ≤ peer.bits) (code : UInt16) {reason : List UInt8}
    (hreason : reason.length ≤ 123) : peer.Slice (closeCodeBytes code ++ reason) := by
  have hlen : (closeCodeBytes code ++ reason).length ≤ 125 := by
    simp only [closeCodeBytes, List.length_append, List.length_cons, List.length_nil]
    omega
  have hpow : 2 ^ 15 ≤ 2 ^ (peer.bits - 1) := Nat.pow_le_pow_right (by omega) (by omega)
  exact lt_of_le_of_lt hlen (lt_of_lt_of_le (by decide) hpow)

/-- **What comes back can be taken**, and makes the messages that went out. -/
lemma echoed_serve (hbits : 16 ≤ peer.bits) (fs : List WireFrame)
    (hne : ∀ f ∈ fs, f.payload ≠ []) (ha : a.Genuine)
    (hfits : peer.Slice (a.buffer ++ fs.flatMap (·.payload))) (k : ℕ) :
    Taken e peer k ((serve a fs).1.filterMap Reply.echo?)
      ((serve a fs).1.filterMap Reply.message?) := by
  induction fs generalizing a k with
  | nil => exact ⟨[], rfl, by simp, by simp [serve], rfl⟩
  | cons f fs ih =>
      rw [List.forall_mem_cons] at hne
      have hsane := respond_sane ha f.opcode f.fin hne.1
      rw [List.flatMap_cons] at hfits
      -- what is echoed is no longer than what has come, so it fits the client too
      have hnow : ∀ {bs : List UInt8}, bs.length ≤ (a.buffer ++ f.payload).length →
          peer.Slice bs := fun hle =>
        slice_of_le (hle.trans (by simp only [List.length_append]; omega)) hfits
      have hnext : ∀ {a' : Assembly}, a'.buffer.length ≤ (a.buffer ++ f.payload).length →
          peer.Slice (a'.buffer ++ fs.flatMap (·.payload)) := fun hle =>
        slice_of_le (by simp only [List.length_append] at hle ⊢; omega) hfits
      rw [serve]
      -- a message comes back as one frame, a PING as its PONG, and a CLOSE is the last
      rcases respond_cases a f.opcode f.fin f.payload with ⟨a', hr⟩ | ⟨bs, a', hr⟩ |
        ⟨op, bs, a', hr⟩ | ⟨code, reason, hr⟩ | ⟨code, reason, hr⟩ <;>
        rw [hr] at hsane ⊢
      · obtain ⟨hgenuine, hle⟩ := hsane.genuine a' rfl
        exact ih hne.2 hgenuine (hnext hle) k
      · obtain ⟨hgenuine, hle⟩ := hsane.genuine a' rfl
        obtain rfl := hsane.pong bs rfl
        have hsilent : respond .idle .pong true f.payload = (none, some .idle) := rfl
        exact taken_cons hne.1 (hnow (by simp)) (ih hne.2 hgenuine (hnext hle) (k + 1)) hsilent
          (by simp)
      · obtain ⟨hgenuine, hle⟩ := hsane.genuine a' rfl
        obtain ⟨hop, hnonempty, hlen, hvalid⟩ := hsane.message op bs rfl
        have hwhole : respond .idle op true bs = (some (.message op bs), some .idle) := by
          rcases hop with rfl | rfl
          · simp [respond, Assembly.step, hvalid]
          · simp [respond, Assembly.step]
        exact taken_cons hnonempty (hnow hlen) (ih hne.2 hgenuine (hnext hle) (k + 1)) hwhole
          (by simp [Reply.fails])
      · have hslice : peer.Slice (closeCodeBytes code ++ []) := slice_close hbits code (by simp)
        rw [List.append_nil] at hslice
        exact taken_close (by simp [closeCodeBytes]) hslice
      · exact taken_close (by simp [closeCodeBytes])
          (slice_close hbits code (hsane.failed code reason rfl))

/-- Calls of `read_message` return the messages that frames make and, if none of them is failed,
the end behind them. -/
lemma readMessages_serve (hw : ∀ i, e.write i = .done) (ws : List WireFrame)
    (hws : ∀ w ∈ ws, headerOk role false w = true ∧ w.payload ≠ [] ∧ e.Slice w.payload)
    (hfine : ∀ r ∈ (serve a ws).1, r.fails = false)
    (h : Receiving role c a out (ws.flatMap WireFrame.encode)) :
    (readMessages e (((serve a ws).1.filterMap Reply.message?).length + 1) c).1 =
      ((serve a ws).1.filterMap Reply.message?).map (fun m => .ok (some ⟨m.1, m.2⟩)) ++
        [.ok none] := by
  induction ws generalizing c a out with
  | nil =>
      obtain ⟨c', hturn, -⟩ := turn_of_end (e := e) h
      rw [readMessages_of_result hturn]
      rfl
  | cons w ws ih =>
      rw [List.flatMap_cons] at h
      rw [List.forall_mem_cons] at hws
      obtain ⟨⟨hheader, hne, hslice⟩, hws⟩ := hws
      have hone := turn_respond hw h hheader hne hslice
      rw [serve] at hfine ⊢
      generalize hturn : turn e c = t at hone
      obtain ⟨c', result⟩ := t
      obtain ⟨hreturned, -, hnext⟩ := hone
      -- a call goes on through silence and PONGs, and ends with a message or with the CLOSE
      rcases respond_cases a w.opcode w.fin w.payload with ⟨a', hr⟩ | ⟨bs, a', hr⟩ |
        ⟨mop, bs, a', hr⟩ | ⟨code, reason, hr⟩ | ⟨code, reason, hr⟩ <;>
        rw [hr] at hreturned hnext hfine ⊢ <;> simp only [Returned] at hreturned
      · subst hreturned
        rw [readMessages_of_continue hturn]
        exact ih hws hfine hnext
      · subst hreturned
        rw [readMessages_of_continue hturn]
        exact ih hws (fun r hr => hfine r (List.mem_cons_of_mem _ hr)) hnext
      · subst hreturned
        have hrest := ih hws (fun r hr => hfine r (List.mem_cons_of_mem _ hr)) hnext
        show (readMessages e ((((serve a' ws).1.filterMap Reply.message?).length + 1) + 1) c).1 = _
        rw [readMessages_of_result hturn, hrest]
        rfl
      · subst hreturned
        show (readMessages e 1 c).1 = _
        rw [readMessages_of_result hturn]
        rfl
      · exact absurd (hfine _ List.mem_cons_self) (by simp [Reply.fails])

end Back

end Connection

open Connection in
/-- **What a client sends to the echo server comes back**, where no extension is negotiated and the
writes succeed.  Whatever frames a client sends that a server can take, in whatever order and cut
into reads in whatever way, and whatever the reads in which the answer comes: the calls of
`read_message` at the client return what those at a server that only reads would return, and then
the end.  That is so also when the server fails on a frame, which is when `echo_session` returns an
error. -/
theorem echo_returns (server client : Env) (hserver : ∀ i, server.write i = .done)
    (hclient : ∀ i, client.write i = .done) (hbits : 16 ≤ client.bits) (frames : List WireFrame)
    (hframes : ∀ f ∈ frames,
      headerOk .server false f = true ∧ f.payload ≠ [] ∧ server.Slice f.payload)
    (hfits : client.Slice (frames.flatMap (·.payload))) (input back : List ReadEvent)
    (hinput : readErrors input = 0) (hback : readErrors back = 0)
    (hsent : inputBytes input = frames.flatMap WireFrame.encode)
    (hanswer : inputBytes back =
      (echoSession server (Connection.new input .server false)).1.written.flatten) :
    let given := (receive server frames.length (Connection.new input .server false)).1
    (readMessages client (given.length + 1) (Connection.new back .client false)).1 =
        given.map (fun m => .ok (some m)) ++ [.ok none] ∧
      ((echoSession server (Connection.new input .server false)).2 = .ok () ↔
        ∀ r ∈ (serve .idle frames).1, r.fails = false) := by
  intro given
  have hstart : Receiving .server (Connection.new input .server false) .idle []
      (frames.flatMap WireFrame.encode) :=
    ⟨rfl, rfl, rfl, ⟨rfl, hsent, hinput⟩, rfl, rfl, rfl⟩
  have hgiven : given = ((serve .idle frames).1.filterMap Reply.message?).map
      (fun m => ⟨m.1, m.2⟩) := by
    have hstart' := hstart
    rw [← List.append_nil (frames.flatMap WireFrame.encode)] at hstart'
    exact (run_serve hserver frames hframes hstart').1
  obtain ⟨hwritten, hok⟩ := echoSession_serve hserver frames hframes hstart trivial
  -- what the server has written is frames that the client can take
  obtain ⟨ws, hbytes, htakeable, hfine, hmessages⟩ := echoed_serve (e := server) hbits frames
    (fun f hf => (hframes f hf).2.1) (a := .idle) trivial hfits 0
  have hclientStart : Receiving .client (Connection.new back .client false) .idle []
      (ws.flatMap WireFrame.encode) := by
    refine ⟨rfl, rfl, rfl, ⟨rfl, ?_, hback⟩, rfl, rfl, rfl⟩
    rw [← hbytes]
    exact hanswer.trans (congrArg List.flatten hwritten)
  have hread := readMessages_serve hclient ws htakeable hfine hclientStart
  rw [hmessages] at hread
  rw [hgiven, List.length_map, List.map_map]
  exact ⟨hread, hok⟩

/-- `Hi` in two halves, a ping between them, and a text that is not UTF-8. -/
def chattyFrames : List WireFrame := [halfText, shortPing, otherHalf, badText, shortPing]

/-- The pong, `Hi` as one frame, and CLOSE with 1007: `Invalid UTF-8 in text frame`. -/
def chattyAnswer : List UInt8 :=
  [0x8a, 0x01, 0x07, 0x81, 0x02, 0x48, 0x69, 0x88, 0x1d, 0x03, 0xef] ++
    strBytes "Invalid UTF-8 in text frame"

/-- The answer comes in one read. -/
def chattyBack : List ReadEvent :=
  [.data ⟨chattyAnswer, by decide +kernel, by decide +kernel⟩]

/-- The client gets `Hi` back and then the end. -/
theorem echo_returns_chatty :
    (Connection.readMessages Connection.plainEnv 2 (Connection.new chattyBack .client false)).1 =
      [.ok (some ⟨.text, [0x48, 0x69]⟩), .ok none] := by
  have hframes : ∀ f ∈ chattyFrames,
      headerOk .server false f = true ∧ f.payload ≠ [] ∧ Connection.plainEnv.Slice f.payload := by
    rw [chattyFrames]
    simp only [List.forall_mem_cons, List.not_mem_nil, false_imp_iff, implies_true, and_true]
    exact ⟨⟨plain_halfText.1, plain_halfText.2.1, plain_halfText.2.2.2⟩,
      ⟨plain_shortPing.1, plain_shortPing.2.1, plain_shortPing.2.2.2⟩,
      ⟨plain_otherHalf.1, plain_otherHalf.2.1, plain_otherHalf.2.2.2⟩,
      ⟨plain_badText.1, plain_badText.2.1, plain_badText.2.2.2⟩,
      plain_shortPing.1, plain_shortPing.2.1, plain_shortPing.2.2.2⟩
  have hanswer : inputBytes chattyBack = (Connection.echoSession Connection.plainEnv
      (Connection.new mixedInput .server false)).1.written.flatten := by decide +kernel
  have hgiven : (Connection.receive Connection.plainEnv chattyFrames.length
      (Connection.new mixedInput .server false)).1 = [⟨.text, [0x48, 0x69]⟩] := by decide +kernel
  have h := (echo_returns Connection.plainEnv Connection.plainEnv (fun _ => rfl) (fun _ => rfl)
    (by decide) chattyFrames hframes (by decide +kernel) mixedInput chattyBack rfl rfl
    inputBytes_mixedInput hanswer).1
  rwa [hgiven] at h

end Rs

end Wscpp
