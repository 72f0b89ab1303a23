import Wscpp.Rs.Session
import Mathlib.Logic.Relation

/-!
# How a ws-rs session ends

Two laws about the end of a session, over every run of public calls.

The first is about the wire: a CLOSE frame is written at most once, and nothing is written after
it.  Nothing in the code enforces it for the application's own calls, since no sender looks at
`open`.  It holds in the runs in which nothing is sent once a CLOSE frame is out
(`closing_handshake`); reading is then harmless, because `read_frame` does look at `open`.

The second is about failures: a protocol error closes the session.  Of the places that raise
one, two return the error without closing: `validate_incoming` in `read_frame`, and
`decompress_message` in `deliver_message`.  A read that fails closes the session exactly when it
failed for neither of these reasons (`protocol_failure_closes_iff`).

Both need only what each call can write: `readMessage_writes` and its companions.
-/

namespace Wscpp.Rs

open Utf8

namespace Connection

variable (e : Env)

/-! ## Public calls -/

/-- The calls an application makes on a connection. -/
inductive PublicCall
  | send (call : Call)
  | sendPong (data : List UInt8)
  | close (code : UInt16) (reason : String)
  | readFrame
  | readMessage
  | setPermessageDeflate (enabled : Bool)

/-- The connection after a call. -/
def PublicCall.run (c : Connection) : PublicCall → Connection
  | send call => (call.run e c).1
  | sendPong data => (c.sendPong e data).1
  | close code reason => (c.close e code reason).1
  | readFrame => (c.readFrame e).1
  | readMessage => (c.readMessage e).1
  | setPermessageDeflate enabled => { c with permessageDeflate := enabled }

/-! ## What a call can write -/

/-- A write adds the frame that was built, or nothing. -/
lemma sendFrameInto_writes (c : Connection) (build : List UInt8 → List UInt8) :
    ∃ out, (sendFrameInto e c build).1 = { c with
        outbound := build c.outbound
        written := c.written ++ out
        writes := c.writes + 1 } ∧ (out = [] ∨ out = [build c.outbound]) := by
  rw [sendFrameInto, sendRaw]
  simp only
  split
  · exact ⟨[build c.outbound], rfl, .inr rfl⟩
  · exact ⟨[], by simp, .inl rfl⟩
  · exact ⟨[build c.outbound], rfl, .inr rfl⟩

/-- Sending anything but a close. -/
lemma sendFrame_writes (c : Connection) (op : Opcode) (hop : op ≠ .close) (data : List UInt8)
    (fin rsv1 : Bool) :
    ∃ out, (sendFrame e c op data fin rsv1).1.written = c.written ++ out ∧ NoClose out ∧
      out.length ≤ 1 := by
  obtain ⟨out, heq, hout⟩ := sendFrameInto_writes e c fun out =>
    buildIntoOpcode out op data fin c.mask rsv1 (e.keys c.writes)
  refine ⟨out, by rw [sendFrame, heq], ?_⟩
  rcases hout with rfl | rfl
  · exact ⟨noClose_nil, by simp⟩
  · refine ⟨fun f hf => ?_, by simp⟩
    rw [List.mem_singleton.mp hf, buildIntoOpcode, encodeInto_eq, isCloseFrame_encodeParts]
    simpa using hop

lemma call_writes (c : Connection) (call : Call) :
    ∃ out, (call.run e c).1.written = c.written ++ out ∧ NoClose out ∧ out.length ≤ 1 := by
  have hdata : ∀ op ≠ Opcode.close, ∀ data fin, ∃ out,
      (sendDataFrame e c op data fin).1.written = c.written ++ out ∧ NoClose out ∧
        out.length ≤ 1 := by
    intro op hop data fin
    rw [sendDataFrame]
    split
    · split
      · exact ⟨[], by simp, noClose_nil, by simp⟩
      · exact sendFrame_writes e c op hop _ _ _
    · exact sendFrame_writes e c op hop _ _ _
  cases call with
  | text s f => exact hdata .text (by simp) _ _
  | binary d f => exact hdata .binary (by simp) _ _
  | continuation d f => exact sendFrame_writes e c _ (by simp) _ _ _
  | ping d => exact sendFrame_writes e c _ (by simp) _ _ _

/-- The connection wrote at most one frame. -/
def WroteOne (c c' : Connection) : Prop :=
  ∃ out, c'.written = c.written ++ out ∧ out.length ≤ 1

lemma WroteOne.refl (c : Connection) : WroteOne c c := ⟨[], by simp, by simp⟩

/-- Sending a close. -/
lemma sendClose_writes (c : Connection) (code : UInt16) (reason : List UInt8) :
    WroteOne c (sendClose e c code reason).1 := by
  obtain ⟨out, heq, hout⟩ := sendFrameInto_writes e c fun out =>
    buildCloseInto out code reason c.mask (e.keys c.writes)
  refine ⟨out, ?_, by rcases hout with rfl | rfl <;> simp⟩
  rw [sendClose]
  split
  · rename_i c' err hsend
    rw [hsend] at heq
    exact congrArg (fun c : Connection => c.written) heq
  · rename_i c' hsend
    rw [hsend] at heq
    exact congrArg (fun c : Connection => c.written) heq

lemma deliverPlain_writes (c : Connection) (op : Opcode) (plain : List UInt8) :
    WroteOne c (deliverPlain e c op plain).1 := by
  have hclose := sendClose_writes e c (sanitizeCloseCode 1007)
    (strBytes "Invalid UTF-8 in text frame")
  rw [deliverPlain]
  split
  · split
    · rename_i c' err hsend
      rw [← close, hsend] at hclose
      exact hclose
    · rename_i c' hsend
      rw [← close, hsend] at hclose
      exact hclose
  · exact WroteOne.refl c

lemma deliverMessage_writes (c : Connection) (op : Opcode) (payload : List UInt8)
    (compressed : Bool) : WroteOne c (deliverMessage e c op payload compressed).1 := by
  rw [deliverMessage]
  split
  · split
    · exact sendClose_writes e c _ _
    · split
      · exact WroteOne.refl c
      · exact deliverPlain_writes e c op _
  · exact deliverPlain_writes e c op _

/-- Handling a frame writes at most one frame, and goes on reading only after anything but a
CLOSE frame. -/
lemma handleFrame_writes (c : Connection) (frame : Frame) :
    WroteOne c (handleFrame e c frame).1 ∧
      ((handleFrame e c frame).2 = none →
        ∃ out, (handleFrame e c frame).1.written = c.written ++ out ∧ NoClose out) := by
  -- a branch that writes nothing
  have hquiet : ∀ c' : Connection, c'.written = c.written →
      WroteOne c c' ∧ ∃ out, c'.written = c.written ++ out ∧ NoClose out := fun c' h =>
    ⟨⟨[], by simp [h], by simp⟩, [], by simp [h], noClose_nil⟩
  have hdata : ∀ op, WroteOne c (handleData e c frame op).1 ∧
      ((handleData e c frame op).2 = none →
        ∃ out, (handleData e c frame op).1.written = c.written ++ out ∧ NoClose out) := by
    intro op
    rw [handleData]
    split_ifs
    · exact ⟨sendClose_writes e c _ _, by simp [finish]⟩
    · exact ⟨(hquiet _ rfl).1, fun _ => (hquiet _ rfl).2⟩
    · exact ⟨deliverMessage_writes e c _ _ _, by simp [finish]⟩
  cases hop : frame.header.opcode with
  | text => simpa only [handleFrame, hop] using hdata .text
  | binary => simpa only [handleFrame, hop] using hdata .binary
  | close =>
      simp only [handleFrame, hop]
      exact ⟨sendClose_writes e { c with lastClose := some (parseClosePayload frame.payload) } _ _,
        by simp [finish]⟩
  | ping =>
      obtain ⟨out, heq, hno, hone⟩ := sendFrame_writes e c .pong (by simp) frame.payload true false
      simp only [handleFrame, hop]
      split
      · rename_i c' err hsend
        rw [← sendPong, hsend] at heq
        exact ⟨⟨out, heq, hone⟩, by simp⟩
      · rename_i c' hsend
        rw [← sendPong, hsend] at heq
        exact ⟨⟨out, heq, hone⟩, fun _ => ⟨out, heq, hno⟩⟩
  | pong =>
      simp only [handleFrame, hop]
      exact ⟨(hquiet _ rfl).1, fun _ => (hquiet _ rfl).2⟩
  | continuation =>
      simp only [handleFrame, hop]
      split_ifs
      · exact ⟨sendClose_writes e c _ _, by simp [finish]⟩
      · exact ⟨deliverMessage_writes e { c with fragment := .reset } _ _ _, by simp [finish]⟩
      · exact ⟨(hquiet _ rfl).1, fun _ => (hquiet _ rfl).2⟩

/-- Reading a frame writes at most one frame, and none if it returns a frame. -/
lemma readFrame_writes (c : Connection) :
    WroteOne c (readFrame e c).1 ∧
      (∀ frame, (readFrame e c).2 = .ok (some frame) →
        (readFrame e c).1.written = c.written) := by
  cases hopen : c.isOpen with
  | false =>
      rw [readFrame_of_closed e hopen]
      exact ⟨WroteOne.refl c, fun _ _ => rfl⟩
  | true =>
      have hends := readFrame_cases e hopen
      generalize readFrame e c = r at hends
      cases hends with
      | frame hparse hrest hsuffix => exact ⟨WroteOne.refl c, fun _ _ => rfl⟩
      | invalid hparse hrest hsuffix =>
          exact ⟨sendClose_writes e (c.withRead _ _ _) _ _, by simp [failProtocol]⟩
      | eof hparse => exact ⟨WroteOne.refl c, fun _ _ => rfl⟩
      | ioError hparse hsuffix => exact ⟨WroteOne.refl c, fun _ _ => rfl⟩

/-- One turn of `read_message` writes at most one frame, and goes on only after anything but a
CLOSE frame. -/
lemma turn_writes (c : Connection) :
    WroteOne c (turn e c).1 ∧
      ((turn e c).2 = none →
        ∃ out, (turn e c).1.written = c.written ++ out ∧ NoClose out) := by
  obtain ⟨hone, hframe⟩ := readFrame_writes e c
  rw [turn]
  rcases hread : readFrame e c with ⟨c₁, err | frame⟩
  · rw [hread] at hone
    exact ⟨hone, by simp⟩
  · rw [hread] at hone hframe
    cases frame with
    | none => exact ⟨hone, by simp⟩
    | some frame =>
        have hsame : c₁.written = c.written := hframe frame rfl
        obtain ⟨hone', hgoes⟩ := handleFrame_writes e c₁ frame
        rw [WroteOne, hsame] at hone'
        rw [hsame] at hgoes
        exact ⟨hone', hgoes⟩

/-- **What `read_message` writes**: frames other than CLOSE, and then at most one frame more. -/
lemma readMessage_writes (c : Connection) :
    ∃ out last, (readMessage e c).1.written = c.written ++ (out ++ last) ∧ NoClose out ∧
      last.length ≤ 1 := by
  induction hn : c.todo using Nat.strongRecOn generalizing c with
  | ind n ih =>
      subst hn
      obtain ⟨⟨last, hlast, hone⟩, hgoes⟩ := turn_writes e c
      rw [readMessage_eq]
      rcases hturn : turn e c with ⟨c', _ | r⟩
      · rw [hturn] at hgoes
        obtain ⟨out, hout, hno⟩ := hgoes rfl
        obtain ⟨out', last', heq, hno', hone'⟩ := ih c'.todo (todo_of_turn e hturn) c' rfl
        refine ⟨out ++ out', last', ?_, ?_, hone'⟩
        · rw [heq, hout]
          simp only [List.append_assoc]
        · intro f hf
          rcases List.mem_append.mp hf with h | h
          · exact hno f h
          · exact hno' f h
      · rw [hturn] at hlast
        exact ⟨[], last, by simpa using hlast, noClose_nil, hone⟩

/-! ## The closing handshake on the wire -/

/-- Every public call adds frames other than CLOSE, and then at most one frame more. -/
lemma run_writes (c : Connection) (call : PublicCall) :
    ∃ out last, (call.run e c).written = c.written ++ (out ++ last) ∧ NoClose out ∧
      last.length ≤ 1 := by
  have hone : ∀ c', WroteOne c c' → ∃ out last, c'.written = c.written ++ (out ++ last) ∧
      NoClose out ∧ last.length ≤ 1 := fun c' ⟨last, heq, hlen⟩ =>
    ⟨[], last, by simpa using heq, noClose_nil, hlen⟩
  cases call with
  | send call =>
      obtain ⟨out, heq, -, hlen⟩ := call_writes e c call
      exact hone _ ⟨out, heq, hlen⟩
  | sendPong data =>
      obtain ⟨out, heq, -, hlen⟩ := sendFrame_writes e c .pong (by simp) data true false
      exact hone _ ⟨out, heq, hlen⟩
  | close code reason => exact hone _ (sendClose_writes e c _ _)
  | readFrame => exact hone _ (readFrame_writes e c).1
  | readMessage => exact readMessage_writes e c
  | setPermessageDeflate enabled => exact hone _ (WroteOne.refl c)

/-- A call that reads or configures, made on a closed connection. -/
def Quiet (c : Connection) : PublicCall → Prop
  | .readFrame => c.isOpen = false
  | .readMessage => c.isOpen = false
  | .setPermessageDeflate _ => True
  | _ => False

lemma readMessage_of_closed {c : Connection} (h : c.isOpen = false) :
    readMessage e c = (c, .ok none) := by
  rw [readMessage_eq, turn, readFrame_of_closed e h]

lemma written_of_quiet {c : Connection} {call : PublicCall} (h : Quiet c call) :
    (call.run e c).written = c.written := by
  cases call with
  | readFrame => rw [PublicCall.run, readFrame_of_closed e h]
  | readMessage => rw [PublicCall.run, readMessage_of_closed e h]
  | setPermessageDeflate enabled => rfl
  | send call => exact absurd h id
  | sendPong data => exact absurd h id
  | close code reason => exact absurd h id

/-- A step of a run in which nothing is sent once a CLOSE frame is out: a call made before any
CLOSE frame was written, or a quiet one. -/
def SilentAfterClose (c c' : Connection) : Prop :=
  ∃ call, (NoClose c.written ∨ Quiet c call) ∧ c' = PublicCall.run e c call

/-- **The closing handshake on the wire.**  In every run in which the application sends nothing
once a CLOSE frame is out, at most one CLOSE frame is written and nothing after it, whatever
arrives and whichever writes fail. -/
theorem closing_handshake (input : List ReadEvent) (role : Role) (deflate : Bool)
    (c : Connection)
    (hrun : Relation.ReflTransGen (SilentAfterClose e) (new input role deflate) c) :
    (c.written.filter isCloseFrame).length ≤ 1 ∧ CloseIsLast c.written := by
  have hlast : CloseIsLast c.written := by
    induction hrun with
    | refl => exact closeIsLast_append noClose_nil (Nat.zero_le 1)
    | tail _ hstep ih =>
        obtain ⟨call, hsilent, rfl⟩ := hstep
        rcases hsilent with hno | hquiet
        · obtain ⟨out, last, heq, hout, hlast⟩ := run_writes e _ call
          rw [heq, ← List.append_assoc]
          refine closeIsLast_append (fun f hf => ?_) hlast
          rcases List.mem_append.mp hf with h | h
          · exact hno f h
          · exact hout f h
        · rwa [written_of_quiet e hquiet]
  exact ⟨hlast.at_most_one, hlast⟩

/-- A server that says hello, closes and then reads. -/
theorem closing_handshake_hello :
    let c := [PublicCall.send (.text "hello" true), .close 1000 "bye", .readMessage].foldl
      (PublicCall.run plainEnv) (new [] .server false)
    (c.written.filter isCloseFrame).length = 1 ∧ CloseIsLast c.written := by
  refine ⟨by decide, (closing_handshake plainEnv [] .server false _ ?_).2⟩
  refine .tail (.tail (.tail .refl ⟨.send (.text "hello" true), .inl ?_, rfl⟩)
    ⟨.close 1000 "bye", .inl ?_, rfl⟩) ⟨.readMessage, .inr rfl, rfl⟩
  · exact noClose_nil
  · unfold NoClose
    decide

/-- A second `close` writes a second CLOSE frame. -/
theorem closing_handshake_fails :
    ¬∀ calls : List PublicCall,
      ((calls.foldl (PublicCall.run plainEnv) (new [] .server false)).written.filter
          isCloseFrame).length ≤ 1 ∧
        CloseIsLast (calls.foldl (PublicCall.run plainEnv) (new [] .server false)).written := by
  intro h
  have htwice := (h [.close 1000 "bye", .close 1000 "bye"]).1
  revert htwice
  decide

/-! ## Failures -/

/-- The next frame of the stream: what the parser makes of the bytes still to be read. -/
def nextFrame (c : Connection) : Option Frame :=
  match parseAll e c with
  | (q, some .complete, _) => some q.takeFrame.1
  | _ => none

/-- The message a frame completes: its opcode, its payload and whether it is compressed. -/
def completed (frag : FragmentState) (frame : Frame) : Option (Opcode × List UInt8 × Bool) :=
  match frame.header.opcode with
  | .continuation =>
      if frag.active && frame.header.fin then
        some (frag.opcode, frag.buffer ++ frame.payload, frag.compressed)
      else none
  | .text =>
      if !frag.active && frame.header.fin then some (.text, frame.payload, frame.header.rsv1)
      else none
  | .binary =>
      if !frag.active && frame.header.fin then some (.binary, frame.payload, frame.header.rsv1)
      else none
  | _ => none

/-- The frame completes a compressed message that `decompress_message` rejects. -/
def Undecodable (c : Connection) (frame : Frame) : Prop :=
  ∃ op payload, completed c.fragment frame = some (op, payload, true) ∧
    c.permessageDeflate = true ∧ decompressMessage e.zlib payload = none

/-- The next frame passes `validate_incoming`. -/
def ValidNext (c : Connection) : Prop :=
  ∀ frame ∈ nextFrame e c, validateIncoming frame.header c.role c.permessageDeflate = .ok ()

/-- The next frame passes `validate_incoming` and is not undecodable. -/
def CleanNext (c : Connection) : Prop :=
  ValidNext e c ∧ ∀ frame ∈ nextFrame e c, ¬Undecodable e c frame

/-- `read_message` goes on from `c` to `c'`. -/
def GoesOn (c c' : Connection) : Prop := turn e c = (c', none)

/-- A step of an arbitrary run. -/
def AnyCall (c c' : Connection) : Prop := ∃ call, c' = PublicCall.run e c call

/-- A CLOSE frame with the given status code. -/
def IsCloseWith (code : UInt16) (bs : List UInt8) : Prop :=
  ∃ key reason, bs = encodeParts true false false false Opcode.close.toU8
    (.shortest (closeCodeBytes code ++ reason).length) key (closeCodeBytes code ++ reason)

/-- The status code that belongs to an error. -/
def failureCode (reason : String) : UInt16 :=
  if reason = "invalid UTF-8 in text frame" then 1007 else 1002

/-- A failed read has closed the session: one CLOSE frame with the right code was written for it,
the connection is not open, and no later call delivers a message. -/
def FailedClosed (c c' : Connection) (reason : String) : Prop :=
  c'.isOpen = false ∧
    (∃ out frame, c'.written = c.written ++ (out ++ [frame]) ∧ NoClose out ∧
      IsCloseWith (failureCode reason) frame) ∧
    ∀ c'', Relation.ReflTransGen (AnyCall e) c' c'' → (readMessage e c'').2 = .ok none

lemma isOpen_sendFrame (c : Connection) (op : Opcode) (data : List UInt8) (fin rsv1 : Bool) :
    (sendFrame e c op data fin rsv1).1.isOpen = c.isOpen := by
  obtain ⟨out, heq, -⟩ := sendFrameInto_writes e c fun out =>
    buildIntoOpcode out op data fin c.mask rsv1 (e.keys c.writes)
  rw [sendFrame, heq]

lemma isOpen_sendDataFrame (c : Connection) (op : Opcode) (data : List UInt8) (fin : Bool) :
    (sendDataFrame e c op data fin).1.isOpen = c.isOpen := by
  rw [sendDataFrame]
  split
  · split
    · rfl
    · exact isOpen_sendFrame e c _ _ _ _
  · exact isOpen_sendFrame e c _ _ _ _

lemma isOpen_sendClose {c : Connection} (h : c.isOpen = false) (code : UInt16)
    (reason : List UInt8) : (sendClose e c code reason).1.isOpen = false := by
  obtain ⟨out, heq, -⟩ := sendFrameInto_writes e c fun out =>
    buildCloseInto out code reason c.mask (e.keys c.writes)
  rw [sendClose]
  split
  · rename_i c' err hsend
    rw [hsend] at heq
    rw [show c' = _ from heq]
    exact h
  · rfl

/-- No call opens a connection again. -/
lemma isOpen_run {c : Connection} (h : c.isOpen = false) (call : PublicCall) :
    (call.run e c).isOpen = false := by
  cases call with
  | send call =>
      cases call with
      | text s f => exact (isOpen_sendDataFrame e c _ _ _).trans h
      | binary d f => exact (isOpen_sendDataFrame e c _ _ _).trans h
      | continuation d f => exact (isOpen_sendFrame e c _ _ _ _).trans h
      | ping d => exact (isOpen_sendFrame e c _ _ _ _).trans h
  | sendPong data => exact (isOpen_sendFrame e c _ _ _ _).trans h
  | close code reason => exact isOpen_sendClose e h _ _
  | readFrame => rwa [PublicCall.run, readFrame_of_closed e h]
  | readMessage => rwa [PublicCall.run, readMessage_of_closed e h]
  | setPermessageDeflate enabled => exact h

lemma readMessage_after_closed {c c' : Connection} (h : c.isOpen = false)
    (hrun : Relation.ReflTransGen (AnyCall e) c c') : (readMessage e c').2 = .ok none := by
  have hclosed : c'.isOpen = false := by
    induction hrun with
    | refl => exact h
    | tail _ hstep ih =>
        obtain ⟨call, rfl⟩ := hstep
        exact isOpen_run e ih call
  rw [readMessage_of_closed e hclosed]

/-- The CLOSE frame of a failure was written, and the connection is not open. -/
def ClosedBy (c c' : Connection) (reason : String) : Prop :=
  c'.isOpen = false ∧ ∃ frame, c'.written = c.written ++ [frame] ∧
    IsCloseWith (failureCode reason) frame

lemma eq_of_finish {α : Type} {r : Connection × Except Error α} {f : α → Option Message}
    {c' : Connection} {err : Error} (h : finish r f = (c', some (.error err))) :
    r = (c', .error err) := by
  rcases r with ⟨c₁, err' | a⟩
  · simpa [finish, Except.map] using h
  · simp [finish, Except.map] at h

lemma not_undecodable_of_none {c : Connection} {frame : Frame}
    (h : completed c.fragment frame = none) : ¬Undecodable e c frame := by
  rintro ⟨op, payload, hcompl, -, -⟩
  rw [h] at hcompl
  simp at hcompl

/-- The frame that `read_frame` returns is the next one, and it is valid. -/
lemma nextFrame_of_readFrame {c c₁ : Connection} {frame : Frame}
    (h : readFrame e c = (c₁, .ok (some frame))) :
    c.isOpen = true ∧ nextFrame e c = some frame ∧ ValidNext e c ∧
      ∃ q rs input, c₁ = c.withRead q rs input := by
  obtain ⟨hopen, q, rs, input, hparse, hc, rfl, hvalid⟩ := readFrame_eq_frame e h
  have hnext : nextFrame e c = some q.takeFrame.1 := by rw [nextFrame, hparse]
  refine ⟨hopen, hnext, ?_, _, _, _, hc⟩
  intro frame hframe
  rw [hnext] at hframe
  obtain rfl := Option.some.inj hframe
  exact hvalid

/-- A frame that completes a message ends the turn. -/
lemma handleFrame_of_completed {c : Connection} {frame : Frame}
    {m : Opcode × List UInt8 × Bool} (h : completed c.fragment frame = some m) :
    (handleFrame e c frame).2 ≠ none := by
  have hdata : ∀ op, (if !c.fragment.active && frame.header.fin then
      some (op, frame.payload, frame.header.rsv1) else none) = some m →
      (handleData e c frame op).2 ≠ none := by
    intro op hop
    split_ifs at hop with hcond
    simp only [Bool.and_eq_true, Bool.not_eq_true'] at hcond
    simp [handleData, hcond, finish]
  cases hop : frame.header.opcode with
  | text =>
      rw [completed, hop] at h
      rw [handleFrame, hop]
      exact hdata .text h
  | binary =>
      rw [completed, hop] at h
      rw [handleFrame, hop]
      exact hdata .binary h
  | continuation =>
      simp only [completed, hop] at h
      split_ifs at h with hcond
      simp only [Bool.and_eq_true] at hcond
      simp [handleFrame, hop, hcond, finish]
  | close => simp [completed, hop] at h
  | ping => simp [completed, hop] at h
  | pong => simp [completed, hop] at h

/-- `read_message` goes on only after a clean frame. -/
lemma cleanNext_of_goesOn {c c' : Connection} (h : GoesOn e c c') : CleanNext e c := by
  rw [GoesOn, turn] at h
  split at h
  · simp at h
  · simp at h
  · rename_i c₁ frame hread
    obtain ⟨-, hnext, hvalid, q, rs, input, rfl⟩ := nextFrame_of_readFrame e hread
    refine ⟨hvalid, fun f hf => ?_⟩
    rw [hnext] at hf
    obtain rfl := Option.some.inj hf
    rintro ⟨op, payload, hcompl, -, -⟩
    exact handleFrame_of_completed e (c := c.withRead q rs input) hcompl (by rw [h])

section Failure

variable {e} (hw : ∀ i, e.write i = .done)

include hw

lemma close_done (c : Connection) (code : UInt16) (hcode : isValidCloseCode code = true)
    (reason : String) :
    ∃ c' frame, close e c code reason = (c', .ok ()) ∧ c'.isOpen = false ∧
      c'.written = c.written ++ [frame] ∧ IsCloseWith code frame := by
  have hsame : sanitizeCloseCode code = code := by rw [sanitizeCloseCode, if_pos hcode]
  rw [close, sendClose_done e (hw _), hsame]
  exact ⟨_, _, rfl, rfl, rfl, _, strBytes reason, rfl⟩

lemma failProtocol_failure {α : Type} {c c' : Connection} {r reason : String}
    (h : failProtocol (α := α) e c r = (c', .error (.protocol reason)))
    (hr : r ≠ "invalid UTF-8 in text frame") : ClosedBy c c' reason := by
  obtain ⟨c₁, frame, heq, hopen, hwritten, hclose⟩ := close_done hw c 1002 (by decide) r
  rw [failProtocol, heq] at h
  simp only [Prod.mk.injEq, Except.error.injEq, Error.protocol.injEq] at h
  obtain ⟨rfl, rfl⟩ := h
  exact ⟨hopen, frame, hwritten, by rwa [failureCode, if_neg hr]⟩

lemma deliverPlain_failure {c c' : Connection} {op : Opcode} {plain : List UInt8}
    {reason : String} (h : deliverPlain e c op plain = (c', .error (.protocol reason))) :
    ClosedBy c c' reason := by
  obtain ⟨c₁, frame, heq, hopen, hwritten, hclose⟩ := close_done hw c 1007 (by decide)
    "Invalid UTF-8 in text frame"
  rw [deliverPlain, heq] at h
  split_ifs at h
  · simp only [Prod.mk.injEq, Except.error.injEq, Error.protocol.injEq] at h
    obtain ⟨rfl, rfl⟩ := h
    exact ⟨hopen, frame, hwritten, by rwa [failureCode, if_pos rfl]⟩
  · simp at h

/-- `deliver_message` closes on every error but that of `decompress_message`. -/
lemma deliverMessage_failure {c c' : Connection} {op : Opcode} {payload : List UInt8}
    {compressed : Bool} {reason : String}
    (h : deliverMessage e c op payload compressed = (c', .error (.protocol reason))) :
    (ClosedBy c c' reason ∧ ¬(compressed = true ∧ c.permessageDeflate = true ∧
        decompressMessage e.zlib payload = none)) ∨
      (c' = c ∧ compressed = true ∧ c.permessageDeflate = true ∧
        decompressMessage e.zlib payload = none) := by
  rw [deliverMessage] at h
  split_ifs at h with hz hd
  · refine .inl ⟨failProtocol_failure hw h (by decide), ?_⟩
    simp at hd
    simp [hd]
  · split at h
    · rename_i hnone
      simp only [Prod.mk.injEq] at h
      exact .inr ⟨h.1.symm, hz, by simpa using hd, hnone⟩
    · rename_i plain hsome
      exact .inl ⟨deliverPlain_failure hw h, by simp [hsome]⟩
  · exact .inl ⟨deliverPlain_failure hw h, by simp [hz]⟩

/-- The same for the message that a frame completes. -/
lemma completed_failure {c c₁ c' : Connection} {frame : Frame} {op : Opcode}
    {payload : List UInt8} {compressed : Bool} {reason : String}
    (hsame : c₁.isOpen = c.isOpen ∧ c₁.written = c.written ∧
      c₁.permessageDeflate = c.permessageDeflate)
    (hcompl : completed c.fragment frame = some (op, payload, compressed))
    (h : deliverMessage e c₁ op payload compressed = (c', .error (.protocol reason))) :
    (ClosedBy c c' reason ∧ ¬Undecodable e c frame) ∨
      (c'.isOpen = c.isOpen ∧ Undecodable e c frame) := by
  obtain ⟨hopen, hwritten, hdeflate⟩ := hsame
  rcases deliverMessage_failure hw h with ⟨hclosed, hno⟩ | ⟨rfl, rfl, hdefl, hnone⟩
  · left
    rw [ClosedBy, hwritten] at hclosed
    refine ⟨hclosed, ?_⟩
    rintro ⟨op', payload', hcompl', hdefl, hnone⟩
    rw [hcompl] at hcompl'
    simp only [Option.some.injEq, Prod.mk.injEq] at hcompl'
    obtain ⟨rfl, rfl, rfl⟩ := hcompl'
    exact hno ⟨rfl, hdeflate.trans hdefl, hnone⟩
  · exact .inr ⟨hopen, op, payload, hcompl, hdeflate ▸ hdefl, hnone⟩

lemma handleData_failure (op : Opcode) {c c' : Connection} {frame : Frame} {reason : String}
    (hcompl : completed c.fragment frame =
      if !c.fragment.active && frame.header.fin then some (op, frame.payload, frame.header.rsv1)
      else none)
    (h : handleData e c frame op = (c', some (.error (.protocol reason)))) :
    (ClosedBy c c' reason ∧ ¬Undecodable e c frame) ∨
      (c'.isOpen = c.isOpen ∧ Undecodable e c frame) := by
  rw [handleData] at h
  split_ifs at h with hactive hfin
  · refine .inl ⟨failProtocol_failure hw (eq_of_finish h) (by decide), ?_⟩
    exact not_undecodable_of_none e (by simp [hcompl, hactive])
  · simp at h
  · refine completed_failure hw ⟨rfl, rfl, rfl⟩ ?_ (eq_of_finish h)
    simp only [Bool.not_eq_true, Bool.not_eq_true', Bool.not_eq_false] at hactive hfin
    simp [hcompl, hactive, hfin]

/-- Handling a frame closes on every error but that of `decompress_message`. -/
lemma handleFrame_failure {c c' : Connection} {frame : Frame} {reason : String}
    (h : handleFrame e c frame = (c', some (.error (.protocol reason)))) :
    (ClosedBy c c' reason ∧ ¬Undecodable e c frame) ∨
      (c'.isOpen = c.isOpen ∧ Undecodable e c frame) := by
  cases hop : frame.header.opcode with
  | text =>
      apply handleData_failure hw .text (by simp [completed, hop])
      simpa only [handleFrame, hop] using h
  | binary =>
      apply handleData_failure hw .binary (by simp [completed, hop])
      simpa only [handleFrame, hop] using h
  | close =>
      simp only [handleFrame, hop] at h
      have hclose := eq_of_finish h
      simp [handleCloseFrame, sendClose_done e (hw _)] at hclose
  | ping => simp [handleFrame, hop, sendPong, sendFrame_done e (hw _)] at h
  | pong => simp [handleFrame, hop] at h
  | continuation =>
      simp only [handleFrame, hop] at h
      split_ifs at h with hactive hfin
      · refine .inl ⟨failProtocol_failure hw (eq_of_finish h) (by decide), ?_⟩
        exact not_undecodable_of_none e (by simp_all [completed])
      · refine completed_failure hw ?_ ?_ (eq_of_finish h)
        · exact ⟨rfl, rfl, rfl⟩
        · simp_all [completed]
      · simp at h

/-- `read_frame` closes on every protocol error but those of `validate_incoming`. -/
lemma readFrame_failure {c c' : Connection} {reason : String}
    (h : readFrame e c = (c', .error (.protocol reason))) :
    (ClosedBy c c' reason ∧ nextFrame e c = none) ∨
      (c'.isOpen = true ∧ ¬ValidNext e c) := by
  cases hopen : c.isOpen with
  | false =>
      rw [readFrame_of_closed e hopen] at h
      simp at h
  | true =>
      have hends := readFrame_cases e hopen
      generalize readFrame e c = r at h hends
      cases hends with
      | frame hparse hrest hsuffix =>
          right
          obtain ⟨rfl, hverdict⟩ := Prod.mk.inj h
          refine ⟨hopen, fun hvalid => ?_⟩
          rw [verdict, hvalid _ (by rw [nextFrame, hparse]; rfl)] at hverdict
          simp at hverdict
      | invalid hparse hrest hsuffix =>
          have hclosed := failProtocol_failure hw h (by decide)
          exact .inl ⟨hclosed, by rw [nextFrame, hparse]⟩
      | eof hparse => simp at h
      | ioError hparse hsuffix => simp at h

/-- **A turn that fails** has closed the connection, or met a frame that is not clean. -/
lemma turn_failure {c c' : Connection} {reason : String}
    (h : turn e c = (c', some (.error (.protocol reason)))) :
    (ClosedBy c c' reason ∧ CleanNext e c) ∨ (c'.isOpen = true ∧ ¬CleanNext e c) := by
  rw [turn] at h
  split at h
  · rename_i c₁ err hread
    simp only [Prod.mk.injEq, Option.some.injEq, Except.error.injEq] at h
    obtain ⟨rfl, rfl⟩ := h
    rcases readFrame_failure hw hread with ⟨hclosed, hnone⟩ | ⟨hopen, hinvalid⟩
    · exact .inl ⟨hclosed, by simp [CleanNext, ValidNext, hnone]⟩
    · exact .inr ⟨hopen, fun hclean => hinvalid hclean.1⟩
  · simp at h
  · rename_i c₁ frame hread
    obtain ⟨hopen, hnext, hvalid, q, rs, input, rfl⟩ := nextFrame_of_readFrame e hread
    have hdec : (∀ f ∈ nextFrame e c, ¬Undecodable e c f) ↔ ¬Undecodable e c frame := by
      simp [hnext]
    rcases handleFrame_failure hw h with ⟨hclosed, hno⟩ | ⟨hsame, hyes⟩
    · exact .inl ⟨hclosed, hvalid, hdec.mpr hno⟩
    · exact .inr ⟨hsame.trans hopen, fun hclean => hdec.mp hclean.2 hyes⟩

/-- **A read of a message that fails** has closed the connection, after the pongs it wrote on the
way, or met a frame that is not clean. -/
lemma readMessage_failure {c c' : Connection} {reason : String}
    (h : readMessage e c = (c', .error (.protocol reason))) :
    (c'.isOpen = false ∧ (∃ out frame, c'.written = c.written ++ (out ++ [frame]) ∧ NoClose out ∧
        IsCloseWith (failureCode reason) frame) ∧
      ∀ c₁, Relation.ReflTransGen (GoesOn e) c c₁ → CleanNext e c₁) ∨
    (c'.isOpen = true ∧ ∃ c₁, Relation.ReflTransGen (GoesOn e) c c₁ ∧ ¬CleanNext e c₁) := by
  induction hn : c.todo using Nat.strongRecOn generalizing c with
  | ind n ih =>
      subst hn
      rw [readMessage_eq] at h
      rcases hturn : turn e c with ⟨c₂, _ | r⟩
      · rw [hturn] at h
        -- a turn that goes on, whose pongs come first
        obtain ⟨-, hgoes⟩ := turn_writes e c
        rw [hturn] at hgoes
        obtain ⟨out, hout, hno⟩ := hgoes rfl
        rcases ih c₂.todo (todo_of_turn e hturn) h rfl with
          ⟨hopen, ⟨out', frame, hwritten, hno', hclose⟩, hclean⟩ | ⟨hopen, c₁, hreach, hdirty⟩
        · refine .inl ⟨hopen, ⟨out ++ out', frame, ?_, ?_, hclose⟩, ?_⟩
          · rw [hwritten, hout]
            simp only [List.append_assoc]
          · intro f hf
            exact (List.mem_append.mp hf).elim (hno f) (hno' f)
          · intro c₁ hreach
            rcases hreach.cases_head with rfl | ⟨c₃, hgo, hreach'⟩
            · exact cleanNext_of_goesOn e hturn
            · have hsame : c₃ = c₂ := congrArg Prod.fst (hgo.symm.trans hturn)
              exact hclean c₁ (hsame ▸ hreach')
        · exact .inr ⟨hopen, c₁, .head hturn hreach, hdirty⟩
      · rw [hturn] at h
        simp only [Prod.mk.injEq] at h
        obtain ⟨rfl, rfl⟩ := h
        -- the turn that fails
        rcases turn_failure hw hturn with ⟨⟨hopen, frame, hwritten, hclose⟩, hclean⟩ |
          ⟨hopen, hdirty⟩
        · refine .inl ⟨hopen, ⟨[], frame, hwritten, noClose_nil, hclose⟩, ?_⟩
          intro c₁ hreach
          rcases hreach.cases_head with rfl | ⟨c₃, hgo, -⟩
          · exact hclean
          · rw [GoesOn, hturn] at hgo
            simp at hgo
        · exact .inr ⟨hopen, c, .refl, hdirty⟩

end Failure

/-- **When a protocol failure closes the session.**  With writes succeeding, a read that returns
a protocol error from any state of the connection has written exactly one CLOSE frame for it and
left the connection closed for good if and only if every frame it took passed `validate_incoming`
and, in `read_message`, completed no compressed message that `decompress_message` rejects. -/
theorem protocol_failure_closes_iff (hw : ∀ i, e.write i = .done) (c : Connection)
    (reason : String) :
    ((readFrame e c).2 = .error (.protocol reason) →
      (FailedClosed e c (readFrame e c).1 reason ↔ ValidNext e c)) ∧
    ((readMessage e c).2 = .error (.protocol reason) →
      (FailedClosed e c (readMessage e c).1 reason ↔
        ∀ c₁, Relation.ReflTransGen (GoesOn e) c c₁ → CleanNext e c₁)) := by
  constructor
  · intro hresult
    have heq : readFrame e c = ((readFrame e c).1, .error (.protocol reason)) := by rw [← hresult]
    rcases readFrame_failure hw heq with
      ⟨⟨hopen, frame, hwritten, hclose⟩, hnone⟩ | ⟨hopen, hinvalid⟩
    · refine iff_of_true ⟨hopen, ⟨[], frame, hwritten, noClose_nil, hclose⟩, ?_⟩ ?_
      · exact fun c'' hrun => readMessage_after_closed e hopen hrun
      · simp [ValidNext, hnone]
    · exact iff_of_false (fun h => by simp [h.1] at hopen) hinvalid
  · intro hresult
    have heq : readMessage e c = ((readMessage e c).1, .error (.protocol reason)) := by
      rw [← hresult]
    rcases readMessage_failure hw heq with
      ⟨hopen, hone, hclean⟩ | ⟨hopen, c₁, hreach, hdirty⟩
    · refine iff_of_true ⟨hopen, hone, ?_⟩ hclean
      exact fun c'' hrun => readMessage_after_closed e hopen hrun
    · exact iff_of_false (fun h => by simp [h.1] at hopen) fun hclean => hdirty (hclean c₁ hreach)

/-- A server whose client sends a frame with the reserved opcode 3. -/
def reservedOpcode : Connection :=
  new [.data ⟨[0x83, 0x80, 0x00, 0x00, 0x00, 0x00], by decide, by decide⟩] .server false

/-- The reserved opcode closes the session. -/
theorem protocol_failure_closes_reserved :
    (readFrame plainEnv reservedOpcode).2 = .error (.protocol "invalid frame") ∧
      FailedClosed plainEnv reservedOpcode (readFrame plainEnv reservedOpcode).1
        "invalid frame" := by
  have hresult : (readFrame plainEnv reservedOpcode).2 = .error (.protocol "invalid frame") := by
    decide
  have hnext : nextFrame plainEnv reservedOpcode = none := by decide
  refine ⟨hresult, ((protocol_failure_closes_iff plainEnv (fun _ => rfl) reservedOpcode
    "invalid frame").1 hresult).mpr ?_⟩
  simp [ValidNext, hnext]

/-- A server whose client sends `Hi` without a mask and then again with one. -/
def unmaskedHi : Connection :=
  new [.data ⟨[0x81, 0x02, 0x48, 0x69, 0x81, 0x82, 0x00, 0x00, 0x00, 0x00, 0x48, 0x69], by decide,
    by decide⟩] .server false

/-- The unmasked frame is a protocol error, but nothing is written, the connection stays open,
and the next message is delivered. -/
theorem protocol_failure_left_open :
    (readMessage plainEnv unmaskedHi).2 = .error (.protocol "client frame must be masked") ∧
      (readMessage plainEnv unmaskedHi).1.written = [] ∧
      (readMessage plainEnv unmaskedHi).1.isOpen = true ∧
      (readMessage plainEnv (readMessage plainEnv unmaskedHi).1).2 =
        .ok (some ⟨.text, [0x48, 0x69]⟩) := by
  decide

end Connection

end Wscpp.Rs
