import Wscpp.Cpp.Connection
import Wscpp.Frame.Assembly

/-!
# What the wscpp reader delivers

The buffers of `connection::impl` live from one frame to the next, and `read_payload` does not
touch `payload_buffer_` when a frame has no payload.  A handler then sees the payload of an
earlier frame.  This file finds out for which sessions that shows.

A session is what a well-behaved peer sends: messages in one or more frames, pings and pongs
anywhere between them, and perhaps a CLOSE frame at the end; every payload may be empty.  The
reader's side of it is a machine, `react`, with the message under way and the payload buffer as
its state and the replies of the connection as its output; `run_react` shows that
`read_one_frame` runs this machine.  What the replies should be is known from the session alone,
and `react_matches_iff` compares the two: they agree exactly when no handler saw a payload that
was not its frame's own, or it made no difference.
-/

namespace Wscpp.Cpp

open Utf8

/-! ## Sessions -/

/-- A frame of a well-behaved peer: no reserved bits, a known opcode, the shortest length. -/
structure InFrame (p : Platform) where
  op : Opcode
  fin : Bool
  key : Key
  payload : List UInt8
  /-- The payload fits a vector. -/
  fits : payload.length < 2 ^ (p.bits - 1)

variable {p : Platform}

namespace InFrame

lemma length_lt (f : InFrame p) : f.payload.length < 2 ^ 64 := by
  have hbits := p.bits_le
  have h : 2 ^ (p.bits - 1) ≤ 2 ^ 64 := Nat.pow_le_pow_right (by omega) (by omega)
  exact Nat.lt_of_lt_of_le f.fits h

/-- The frame on the wire, masked if it goes to a server. -/
def wire (f : InFrame p) (role : Role) : WireFrame :=
  .emitted f.fin false f.op (keyIf (role == .server) f.key) f.payload f.length_lt

/-- The piece of a message a frame carries, if it is a data frame. -/
def piece (f : InFrame p) : Option Piece :=
  if f.op.isControl then none else some ⟨f.op, f.fin, f.payload⟩

/-- The payload of a ping. -/
def pingData (f : InFrame p) : Option (List UInt8) :=
  if f.op = .ping then some f.payload else none

end InFrame

/-- The status code contained in the payload of a CLOSE frame, 1000 when there is none. -/
def statusIn : List UInt8 → UInt16
  | b0 :: b1 :: _ => closeCodeOf b0 b1
  | _ => 1000

/-- The status code of a CLOSE frame. -/
def InFrame.closeCode (f : InFrame p) : Option UInt16 :=
  if f.op = .close then some (statusIn f.payload) else none

/-- CLOSE frames come last, and their status code, if any, may be sent. -/
def ClosesLast : List (InFrame p) → Prop
  | [] => True
  | f :: fs => (f.op = .close → fs = [] ∧ isValidCloseCode (statusIn f.payload) = true) ∧
      ClosesLast fs

/-- What a well-behaved peer sends: the messages and the frames that carry them. -/
structure Session (p : Platform) where
  msgs : List Message
  frames : List (InFrame p)
  /-- The data frames are those of the messages. -/
  pieces : frames.filterMap InFrame.piece = msgs.flatMap Message.pieces
  /-- Text messages are valid UTF-8. -/
  text : ∀ m ∈ msgs, m.op = .text → ValidUtf8 m.payload
  closesLast : ClosesLast frames

/-! ## The reader as a machine -/

/-- What the connection does in answer to a frame. -/
inductive Reply
  | message (op : Opcode) (payload : List UInt8)
  | pong (payload : List UInt8)
  | closed (code : UInt16) (reason : List UInt8)
  | failed (code : UInt16) (reason : String)
  deriving DecidableEq

namespace Reply

/-- The message delivered. -/
def message? : Reply → Option (Opcode × List UInt8)
  | message op payload => some (op, payload)
  | _ => none

/-- The frame written: opcode and payload. -/
def frame? : Reply → Option (Opcode × List UInt8)
  | message _ _ => none
  | pong payload => some (.pong, payload)
  | closed code _ => some (.close, closeCodeBytes code)
  | failed code reason => some (.close, closeCodeBytes code ++ strBytes reason)

/-- The status code reported. -/
def code? : Reply → Option UInt16
  | closed code _ => some code
  | failed code _ => some code
  | _ => none

/-- The callbacks invoked. -/
def events : Reply → List Event
  | message op payload => [.onMessage payload op.toU8]
  | pong _ => []
  | closed code reason => [.onClose code reason]
  | failed code reason => [.onError (.reason reason), .onClose code (strBytes reason)]

end Reply

/-- The reason given for a data frame that does not fit the message under way. -/
def misplaced (op : Opcode) : String :=
  if op = .continuation then "Unexpected continuation frame"
  else "New data frame before fragmented message completed"

open Connection in
/-- The reply to a frame, with `data` as the payload the handler sees, and the message under way
after it; nothing in its place when the connection is no longer open. -/
def answer (a : Assembly) (data : List UInt8) (f : InFrame p) : Option Reply × Option Assembly :=
  match f.op with
  | .ping => (some (.pong data), some a)
  | .pong => (none, some a)
  | .close => (some (.closed (closeStatus data) (data.drop 2)), none)
  | op =>
      match a.step ⟨op, f.fin, data⟩ with
      | none => (some (.failed 1002 (misplaced op)), none)
      | some (a, none) => (none, some a)
      | some (a, some m) =>
          if m.1 == .text && !isValidUtf8 p.host m.2 then
            (some (.failed 1007 "Invalid UTF-8 in text frame"), none)
          else (some (.message m.1 m.2), some a)

open Connection in
/-- The replies to a sequence of frames, from a message under way and a payload buffer. -/
def react : Assembly → List UInt8 → List (InFrame p) → List Reply
  | _, _, [] => []
  | a, buffer, f :: fs =>
      let data := bufferAfter buffer f.payload
      let r := answer a data f
      r.1.toList ++
        match r.2 with
        | none => []
        | some a => react a data fs

/-- A data frame is answered according to the reassembly. -/
lemma answer_data {a : Assembly} {data : List UInt8} {f : InFrame p} (h : f.op.isControl = false) :
    answer a data f =
      match a.step ⟨f.op, f.fin, data⟩ with
      | none => (some (.failed 1002 (misplaced f.op)), none)
      | some (a, none) => (none, some a)
      | some (a, some m) =>
          if m.1 == .text && !isValidUtf8 p.host m.2 then
            (some (.failed 1007 "Invalid UTF-8 in text frame"), none)
          else (some (.message m.1 m.2), some a) := by
  obtain ⟨op, fin, key, payload, fits⟩ := f
  cases op <;> first | rfl | simp [Opcode.isControl] at h

/-! ## When the replies are right -/

/-- The replies are those the session asks for: each message, each pong, the status code. -/
structure Matches (ms : List (Opcode × List UInt8)) (fs : List (InFrame p))
    (replies : List Reply) : Prop where
  messages : replies.filterMap Reply.message? = ms
  frames : replies.filterMap Reply.frame? =
    (fs.filterMap InFrame.pingData).map (fun d => (.pong, d)) ++
      (fs.filterMap InFrame.closeCode).map fun code => (.close, closeCodeBytes code)
  codes : replies.filterMap Reply.code? = fs.filterMap InFrame.closeCode

open Connection in
/-- No frame without payload meets a buffer that is not empty, except for a pong, and for a close
when the buffer would be read as the default status code. -/
def CleanFrom : List UInt8 → List (InFrame p) → Prop
  | _, [] => True
  | buffer, f :: fs =>
      (f.payload = [] → f.op = .pong ∨ buffer = [] ∨ (f.op = .close ∧ statusIn buffer = 1000)) ∧
      CleanFrom (bufferAfter buffer f.payload) fs

/-- The reassembly of the reader and the one of the session: the same message is under way, and
the reader has no less of it. -/
inductive Tracks : Assembly → Assembly → Prop
  | idle : Tracks .idle .idle
  | inside {op : Opcode} {x y : List UInt8} (h : y.length ≤ x.length) :
      Tracks (.inside op x) (.inside op y)

lemma append_eq_append_iff_of_length_le {x y d e : List UInt8} (h : y.length ≤ x.length)
    (h' : e.length ≤ d.length) : x ++ d = y ++ e ↔ x = y ∧ d = e := by
  constructor
  · intro heq
    have hlen := congrArg List.length heq
    simp only [List.length_append] at hlen
    exact List.append_inj heq (by omega)
  · rintro ⟨rfl, rfl⟩
    rfl

/-- One data frame, for the reader with `data` in place of `payload`. -/
lemma Tracks.step {a i i' : Assembly} {op : Opcode} {fin : Bool} {data payload : List UInt8}
    {m : Option (Opcode × List UInt8)} (h : Tracks a i) (hlen : payload.length ≤ data.length)
    (hstep : i.step ⟨op, fin, payload⟩ = some (i', m)) :
    ∃ a' m', a.step ⟨op, fin, data⟩ = some (a', m') ∧ Tracks a' i' ∧
      ((m = none ∧ m' = none ∧ (a' = i' ↔ a = i ∧ data = payload)) ∨
        ∃ mop x y, m = some (mop, x) ∧ m' = some (mop, y) ∧ a' = i' ∧
          (y = x ↔ a = i ∧ data = payload)) := by
  cases h with
  | idle =>
      simp only [Assembly.step] at hstep ⊢
      split_ifs at hstep ⊢ with hop hfin
      · simp only [Option.some.injEq, Prod.mk.injEq] at hstep
        obtain ⟨rfl, rfl⟩ := hstep
        exact ⟨_, _, rfl, .idle, .inr ⟨op, payload, data, rfl, rfl, rfl, by simp⟩⟩
      · simp only [Option.some.injEq, Prod.mk.injEq] at hstep
        obtain ⟨rfl, rfl⟩ := hstep
        exact ⟨_, _, rfl, .inside hlen, .inl ⟨rfl, rfl, by simp⟩⟩
  | inside hle =>
      rename_i mop x y
      have happ := append_eq_append_iff_of_length_le hle hlen
      simp only [Assembly.step] at hstep ⊢
      split_ifs at hstep ⊢ with hop hfin
      · simp only [Option.some.injEq, Prod.mk.injEq] at hstep
        obtain ⟨rfl, rfl⟩ := hstep
        exact ⟨_, _, rfl, .idle, .inr ⟨mop, y ++ payload, x ++ data, rfl, rfl, rfl, by simp [happ]⟩⟩
      · simp only [Option.some.injEq, Prod.mk.injEq] at hstep
        obtain ⟨rfl, rfl⟩ := hstep
        refine ⟨_, _, rfl, .inside ?_, .inl ⟨rfl, rfl, by simp [happ]⟩⟩
        simp only [List.length_append]
        omega

open Connection in
lemma bufferAfter_eq_iff {buffer payload : List UInt8} :
    bufferAfter buffer payload = payload ↔ (payload = [] → buffer = []) := by
  rcases eq_or_ne payload [] with rfl | hne
  · simp [bufferAfter]
  · simp [bufferAfter, hne]

open Connection in
lemma length_le_bufferAfter (buffer payload : List UInt8) :
    payload.length ≤ (bufferAfter buffer payload).length := by
  rcases eq_or_ne payload [] with rfl | hne
  · simp
  · simp [bufferAfter, hne]

open Connection in
lemma closeStatus_of_valid {payload : List UInt8}
    (h : isValidCloseCode (statusIn payload) = true) : closeStatus payload = statusIn payload := by
  match payload with
  | [] => rfl
  | [_] => rfl
  | b0 :: b1 :: _ => exact if_pos h

open Connection in
lemma closeStatus_eq_1000_iff {payload : List UInt8} :
    closeStatus payload = 1000 ↔ statusIn payload = 1000 := by
  by_cases h : isValidCloseCode (statusIn payload) = true
  · rw [closeStatus_of_valid h]
  · match payload with
    | [] => rfl
    | [_] => rfl
    | b0 :: b1 :: _ =>
        have hne : closeCodeOf b0 b1 ≠ 1000 := by
          rintro heq
          rw [statusIn, heq] at h
          exact h rfl
        rw [statusIn] at h ⊢
        rw [closeStatus, if_neg h]
        simp [hne]

section Matching

variable {ms : List (Opcode × List UInt8)} {f : InFrame p} {fs : List (InFrame p)}
  {replies : List Reply} {data : List UInt8}

lemma matches_nil : Matches (p := p) ms [] [] ↔ ms = [] := by
  constructor
  · rintro ⟨h, -, -⟩
    simpa using h.symm
  · rintro rfl
    exact ⟨rfl, rfl, rfl⟩

/-- A frame that asks for no reply. -/
lemma matches_silent (hping : f.op ≠ .ping) (hclose : f.op ≠ .close) :
    Matches ms (f :: fs) replies ↔ Matches ms fs replies := by
  have hdata : f.pingData = none := if_neg hping
  have hcode : f.closeCode = none := if_neg hclose
  constructor
  · rintro ⟨h1, h2, h3⟩
    rw [List.filterMap_cons_none hdata, List.filterMap_cons_none hcode] at h2
    rw [List.filterMap_cons_none hcode] at h3
    exact ⟨h1, h2, h3⟩
  · rintro ⟨h1, h2, h3⟩
    refine ⟨h1, ?_, ?_⟩
    · rw [List.filterMap_cons_none hdata, List.filterMap_cons_none hcode, h2]
    · rw [List.filterMap_cons_none hcode, h3]

lemma matches_ping (hop : f.op = .ping) :
    Matches ms (f :: fs) (.pong data :: replies) ↔ data = f.payload ∧ Matches ms fs replies := by
  have hdata : f.pingData = some f.payload := if_pos hop
  have hcode : f.closeCode = none := if_neg (by simp [hop])
  constructor
  · rintro ⟨h1, h2, h3⟩
    rw [List.filterMap_cons_some hdata, List.filterMap_cons_none hcode] at h2
    rw [List.filterMap_cons_none hcode] at h3
    simp only [List.filterMap_cons, Reply.frame?, List.map_cons, List.cons_append,
      List.cons.injEq, Prod.mk.injEq, true_and] at h2
    exact ⟨h2.1, h1, h2.2, h3⟩
  · rintro ⟨rfl, h1, h2, h3⟩
    refine ⟨h1, ?_, ?_⟩
    · rw [List.filterMap_cons_some hdata, List.filterMap_cons_none hcode]
      simp only [List.filterMap_cons, Reply.frame?, h2, List.map_cons, List.cons_append]
    · rw [List.filterMap_cons_none hcode]
      exact h3

lemma matches_close (hop : f.op = .close) {code : UInt16} {reason : List UInt8} :
    Matches [] [f] [.closed code reason] ↔ code = statusIn f.payload := by
  have hdata : f.pingData = none := if_neg (by simp [hop])
  have hcode : f.closeCode = some (statusIn f.payload) := if_pos hop
  constructor
  · rintro ⟨-, -, h⟩
    simpa [Reply.code?, hcode] using h
  · rintro rfl
    exact ⟨by simp [Reply.message?], by simp [Reply.frame?, hcode, hdata],
      by simp [Reply.code?, hcode]⟩

lemma matches_message {op : Opcode} {x y : List UInt8} :
    Matches ((op, x) :: ms) fs (.message op y :: replies) ↔ y = x ∧ Matches ms fs replies := by
  constructor
  · rintro ⟨h1, h2, h3⟩
    simp only [List.filterMap_cons, Reply.message?, List.cons.injEq, Prod.mk.injEq,
      true_and] at h1
    exact ⟨h1.1, h1.2, h2, h3⟩
  · rintro ⟨rfl, h1, h2, h3⟩
    exact ⟨by simp only [List.filterMap_cons, Reply.message?, h1], h2, h3⟩

lemma not_matches_failed {m : Opcode × List UInt8} {code : UInt16} {reason : String} :
    ¬Matches (m :: ms) fs [.failed code reason] := by
  rintro ⟨h, -, -⟩
  cases h

end Matching

open Connection in
/-- The answer to a CLOSE frame, which is the last. -/
lemma react_close_matches_iff {f : InFrame p} {buffer : List UInt8} (a : Assembly)
    (hop : f.op = .close) (hvalid : isValidCloseCode (statusIn f.payload) = true) :
    Matches [] [f] (react a buffer [f]) ↔ CleanFrom buffer [f] := by
  have hreact : react a buffer [f] = [.closed (closeStatus (bufferAfter buffer f.payload))
      ((bufferAfter buffer f.payload).drop 2)] := by
    simp [react, answer, hop]
  rw [hreact, matches_close hop, CleanFrom, hop]
  simp only [CleanFrom, reduceCtorEq, false_or, true_and, and_true]
  rcases eq_or_ne f.payload [] with hnil | hne
  · have hbuf : bufferAfter buffer f.payload = buffer := by simp [bufferAfter, hnil]
    have hown : statusIn f.payload = 1000 := by
      rw [hnil]
      rfl
    have hempty : buffer = [] → statusIn buffer = 1000 := by
      rintro rfl
      rfl
    rw [hbuf, hown, closeStatus_eq_1000_iff]
    simp only [hnil, forall_const]
    exact ⟨.inr, fun h => h.elim hempty id⟩
  · have hbuf : bufferAfter buffer f.payload = f.payload :=
      bufferAfter_eq_iff.mpr fun h => absurd h hne
    rw [hbuf, closeStatus_of_valid hvalid]
    simp [hne]

section React

variable {f : InFrame p} {fs : List (InFrame p)} {buffer : List UInt8} {a i : Assembly}
  {ms : List (Opcode × List UInt8)}

open Connection in
/-- A PING or a PONG leaves the message under way as it is, and a PING has to be answered with its
own payload. -/
lemma react_control_matches_iff (hctl : f.op.isControl = true) (hop : f.op ≠ .close)
    (ih : Matches ms fs (react a (bufferAfter buffer f.payload) fs) ↔
      a = i ∧ CleanFrom (bufferAfter buffer f.payload) fs) :
    Matches ms (f :: fs) (react a buffer (f :: fs)) ↔ a = i ∧ CleanFrom buffer (f :: fs) := by
  cases hop' : f.op with
  | ping =>
      have hreact : react a buffer (f :: fs) = .pong (bufferAfter buffer f.payload) ::
          react a (bufferAfter buffer f.payload) fs := by
        simp [react, answer, hop']
      rw [hreact, matches_ping hop', ih, bufferAfter_eq_iff, CleanFrom, hop']
      simp only [reduceCtorEq, false_or, false_and, or_false]
      tauto
  | pong =>
      have hreact : react a buffer (f :: fs) = react a (bufferAfter buffer f.payload) fs := by
        simp [react, answer, hop']
      rw [hreact, matches_silent (by simp [hop']) (by simp [hop']), ih, CleanFrom]
      simp [hop']
  | close => exact absurd hop' hop
  | continuation => simp [hop', Opcode.isControl] at hctl
  | text => simp [hop', Opcode.isControl] at hctl
  | binary => simp [hop', Opcode.isControl] at hctl

open Connection in
/-- A data frame goes to the message under way.  Where that completes a message, it has to be the
session's, and a text that is not valid cannot be. -/
lemma react_data_matches_iff (hctl : f.op.isControl = false) (h : Tracks a i)
    (hrun : i.run ((f :: fs).filterMap InFrame.piece) = some (.idle, ms))
    (htext : ∀ m ∈ ms, m.1 = .text → ValidUtf8 m.2)
    (ih : ∀ {a i : Assembly} {ms : List (Opcode × List UInt8)}, Tracks a i →
      i.run (fs.filterMap InFrame.piece) = some (.idle, ms) →
      (∀ m ∈ ms, m.1 = .text → ValidUtf8 m.2) →
      (Matches ms fs (react a (bufferAfter buffer f.payload) fs) ↔
        a = i ∧ CleanFrom (bufferAfter buffer f.payload) fs)) :
    Matches ms (f :: fs) (react a buffer (f :: fs)) ↔ a = i ∧ CleanFrom buffer (f :: fs) := by
  have hpiece : f.piece = some ⟨f.op, f.fin, f.payload⟩ := if_neg (by simp [hctl])
  have hne : f.op ≠ .ping ∧ f.op ≠ .pong ∧ f.op ≠ .close := by
    refine ⟨?_, ?_, ?_⟩ <;> intro hop <;> simp [hop, Opcode.isControl] at hctl
  rw [List.filterMap_cons_some hpiece] at hrun
  obtain ⟨i', m, ms', hstep, hrun', rfl⟩ := Assembly.run_cons_eq_some hrun
  obtain ⟨a', m', hstep', h', hcases⟩ := h.step (length_le_bufferAfter buffer f.payload) hstep
  have ih := ih h' hrun' fun m hm => htext m (List.mem_append_right _ hm)
  have hclean : CleanFrom buffer (f :: fs) ↔ bufferAfter buffer f.payload = f.payload ∧
      CleanFrom (bufferAfter buffer f.payload) fs := by
    rw [CleanFrom, bufferAfter_eq_iff]
    simp [hne]
  rw [hclean, matches_silent hne.1 hne.2.2, react, answer_data hctl, hstep']
  rcases hcases with ⟨rfl, rfl, hiff⟩ | ⟨mop, x, y, rfl, rfl, rfl, hiff⟩
  · -- no message is complete yet
    simp only [Option.toList_none, List.nil_append]
    rw [ih, hiff, and_assoc]
  · have hvalid := htext (mop, x) (by simp)
    simp only
    split_ifs with hbad
    · -- a text that is not valid is not the session's
      simp only [Option.toList_some, List.cons_append, List.nil_append]
      apply iff_of_false not_matches_failed
      rintro ⟨ha, hdata, -⟩
      obtain rfl := hiff.mpr ⟨ha, hdata⟩
      simp only [Bool.and_eq_true, beq_iff_eq, Bool.not_eq_true'] at hbad
      have hgood := (isValidUtf8_iff p.host y).mpr (hvalid hbad.1)
      rw [isValidUtf8, hgood] at hbad
      simp at hbad
    · simp only [Option.toList_some, List.cons_append, List.nil_append]
      rw [matches_message, ih, hiff]
      simp [and_assoc]

end React

open Connection in
/-- **When the replies are right.**  The reader answers a session as it should exactly when the
message under way is the right one and no frame without payload shows an earlier payload. -/
lemma react_matches_iff (fs : List (InFrame p)) (buffer : List UInt8) {a i : Assembly}
    {ms : List (Opcode × List UInt8)} (h : Tracks a i)
    (hrun : i.run (fs.filterMap InFrame.piece) = some (.idle, ms))
    (htext : ∀ m ∈ ms, m.1 = .text → ValidUtf8 m.2) (hclose : ClosesLast fs) :
    Matches ms fs (react a buffer fs) ↔ a = i ∧ CleanFrom buffer fs := by
  induction fs generalizing a i buffer ms with
  | nil =>
      simp only [List.filterMap_nil, Assembly.run, Option.some.injEq, Prod.mk.injEq] at hrun
      obtain ⟨rfl, rfl⟩ := hrun
      cases h with
      | idle => simp [react, matches_nil, CleanFrom]
  | cons f fs ih =>
      obtain ⟨hlast, hclose⟩ := hclose
      cases hctl : f.op.isControl with
      | true =>
          have hpiece : f.piece = none := if_pos hctl
          rw [List.filterMap_cons_none hpiece] at hrun
          rcases eq_or_ne f.op .close with hop | hop
          · -- a CLOSE is the last frame, and nothing is under way
            obtain ⟨rfl, hvalid⟩ := hlast hop
            simp only [List.filterMap_nil, Assembly.run, Option.some.injEq, Prod.mk.injEq] at hrun
            obtain ⟨rfl, rfl⟩ := hrun
            cases h
            rw [react_close_matches_iff .idle hop hvalid]
            simp
          · exact react_control_matches_iff hctl hop (ih _ h hrun htext hclose)
      | false =>
          exact react_data_matches_iff hctl h hrun htext fun h' hrun' htext' =>
            ih _ h' hrun' htext' hclose

/-! ## The connection runs the machine -/

namespace Connection

/-- The fragment state of a reassembly. -/
def Holding (c : Connection) : Assembly → Prop
  | .idle => c.fragmented = false
  | .inside op buffer => c.fragmented = true ∧ c.messageOpcode = op.toU8 ∧
      c.messageBuffer = buffer ∧ c.messageCompressed = false

/-- The reader between two frames: `a` is the message under way, `buffer` the payload buffer. -/
structure Serving (role : Role) (c : Connection) (a : Assembly) (buffer : List UInt8) : Prop where
  live : c.Live
  role_eq : c.role = role
  deflate : c.permessageDeflate = false
  holding : c.Holding a
  payload : c.payloadBuffer = buffer
  writes : c.writes = c.wire.length

end Connection

/-- The byte string of the `i`-th frame a connection sends. -/
def frameBytes (p : Platform) (role : Role) (i : ℕ) (frame : Opcode × List UInt8) : List UInt8 :=
  encodeParts true false false false frame.1.toU8 (.shortest frame.2.length)
    (keyIf (role == .client) (p.keys i)) frame.2

/-- The byte strings of a sequence of frames, the first of them the `i`-th. -/
def framesBytes (p : Platform) (role : Role) (i : ℕ) (frames : List (Opcode × List UInt8)) :
    List (List UInt8) :=
  frames.mapIdx fun j frame => frameBytes p role (i + j) frame

lemma framesBytes_append (role : Role) (i : ℕ) (fs gs : List (Opcode × List UInt8)) :
    framesBytes p role i (fs ++ gs) =
      framesBytes p role i fs ++ framesBytes p role (i + fs.length) gs := by
  simp [framesBytes, List.mapIdx_append, Nat.add_comm, Nat.add_left_comm]

lemma framesBytes_injective {role : Role} {i : ℕ} {fs gs : List (Opcode × List UInt8)}
    (h : framesBytes p role i fs = framesBytes p role i gs) : fs = gs := by
  have hlen : fs.length = gs.length := by simpa [framesBytes] using congrArg List.length h
  apply List.ext_getElem hlen
  intro j hj hj'
  have hget : (framesBytes p role i fs)[j]? = (framesBytes p role i gs)[j]? := by rw [h]
  simp only [framesBytes, List.getElem?_mapIdx, List.getElem?_eq_getElem hj,
    List.getElem?_eq_getElem hj', Option.map_some, Option.some.injEq] at hget
  obtain ⟨hop, hpay⟩ := encodeParts_shortest_injective hget
  exact Prod.ext hop hpay

namespace Connection

/-- What one reply does to the connection, with `next` the message under way afterwards. -/
structure Answered (p : Platform) (role : Role) (c c' : Connection)
    (r : Option Reply × Option Assembly) (buffer rest : List UInt8) : Prop where
  input : c'.input = rest
  events : c'.events = c.events ++ r.1.toList.flatMap Reply.events
  wire : c'.wire = c.wire ++ framesBytes p role c.wire.length (r.1.bind Reply.frame?).toList
  next : match r.2 with
    | none => c'.isOpen = false
    | some a => c'.Serving role a buffer

variable {role : Role} {c : Connection} {a : Assembly} {buffer rest : List UInt8} {f : InFrame p}

lemma headerFailure_wire (hrole : c.role = role) :
    headerFailure p (c.withHeader (f.wire role) rest) = none := by
  obtain ⟨op, fin, key, payload, fits⟩ := f
  cases role <;> cases op <;>
    simp [headerFailure, withHeader, headerOf, InFrame.wire, WireFrame.emitted, hrole,
      Opcode.toU8]

/-- The connection once a frame of the session is read. -/
lemma Serving.withFrame (h : c.Serving role a buffer) (f : InFrame p) (rest : List UInt8) :
    (c.withFrame (f.wire role) rest).Serving role a (bufferAfter buffer f.payload) where
  live := h.live.congr rfl rfl rfl rfl
  role_eq := h.role_eq
  deflate := h.deflate
  holding := by
    have hold := h.holding
    cases a <;> exact hold
  payload := by
    rw [← h.payload]
    rfl
  writes := h.writes

variable {next : Option Assembly} {reply : Option Reply} {c' : Connection}

/-- `reset_fragment_state` after a message. -/
lemma Answered.reset (h : Answered p role c c' (reply, next) buffer rest) :
    Answered p role c (resetFragmentState c') (reply, next.map fun _ => .idle) buffer rest where
  input := h.input
  events := h.events
  wire := h.wire
  next := by
    have hnext := h.next
    cases next with
    | none => exact hnext
    | some a' =>
        exact ⟨hnext.live.congr rfl rfl rfl rfl, hnext.role_eq, hnext.deflate, rfl, hnext.payload,
          hnext.writes⟩

/-- A payload buffer that is swapped for itself. -/
lemma Answered.withPayload (h : Answered p role c c' (reply, next) buffer rest) :
    Answered p role c { c' with payloadBuffer := buffer } (reply, next) buffer rest where
  input := h.input
  events := h.events
  wire := h.wire
  next := by
    have hnext := h.next
    cases next with
    | none => exact hnext
    | some a' =>
        refine ⟨hnext.live.congr rfl rfl rfl rfl, hnext.role_eq, hnext.deflate, ?_, rfl,
          hnext.writes⟩
        have hold := hnext.holding
        cases a' <;> exact hold

variable (hw : ∀ i, p.write i = true)

include hw

lemma failWithClose_answered (h : c.Serving role a buffer) (code : UInt16) (reason : String) :
    Answered p role c (failWithClose p c code reason) (some (.failed code reason), none) buffer
      c.input := by
  rw [failWithClose_eq hw h.live]
  refine ⟨rfl, ?_, ?_, rfl⟩
  · simp [Reply.events]
  · simp [sent, outFrame, outboundMask, h.role_eq, h.writes, framesBytes, frameBytes, Reply.frame?]

/-- A complete message is delivered, or fails on its text. -/
lemma deliverPlain_answered (h : c.Serving role a buffer) (op : Opcode) (payload : List UInt8) :
    Answered p role c (deliverPlain p c payload op.toU8)
      (if op == .text && !isValidUtf8 p.host payload then
        (some (.failed 1007 "Invalid UTF-8 in text frame"), none)
      else (some (.message op payload), some a)) buffer c.input := by
  have hop : (op.toU8 == Opcode.text.toU8) = (op == .text) := by cases op <;> rfl
  rw [deliverPlain, hop]
  split_ifs with hbad
  · exact failWithClose_answered hw h 1007 _
  · refine ⟨rfl, ?_, ?_, ?_⟩
    · simp [Reply.events]
    · simp [Reply.frame?, framesBytes]
    · refine ⟨h.live.congr rfl rfl rfl rfl, h.role_eq, h.deflate, ?_, h.payload, h.writes⟩
      have hold := h.holding
      cases a <;> exact hold

/-- **A data frame** does to the connection what it does to the machine. -/
lemma handleFrame_data_answered (h : c.Serving role a buffer) (hctl : f.op.isControl = false)
    (hop : c.currentHeader.op = f.op.toU8) (hfin : c.currentHeader.fin = f.fin)
    (hrsv : c.currentHeader.rsv1 = false) :
    Answered p role c (handleFrame p c) (answer a buffer f) buffer c.input := by
  rw [answer_data hctl, handleFrame_of_opcode p hop]
  cases a with
  | idle =>
      have hfrag : c.fragmented = false := h.holding
      by_cases hcont : f.op = .continuation
      · simp only [hcont, handleOpcode, handleContinuation, hfrag, Assembly.step, if_true,
          Bool.not_false]
        -- a continuation of nothing
        exact failWithClose_answered hw h 1002 _
      · rw [handleOpcode_data p c hctl hcont, handleData, hfrag, hfin, hop, hrsv, Assembly.step]
        simp only [hcont, if_false, Bool.false_eq_true]
        cases hf : f.fin with
        | false =>
            refine ⟨rfl, ?_, ?_, ?_⟩
            · simp
            · simp [framesBytes]
            · exact ⟨h.live.congr rfl rfl rfl rfl, h.role_eq, h.deflate, ⟨rfl, rfl, h.payload, rfl⟩,
                h.payload, h.writes⟩
        | true =>
            -- a message in one frame
            have hdeliver := deliverPlain_answered hw h f.op buffer
            simp only [deliverMessage_plain, Bool.not_true, Bool.false_eq_true, if_false, if_true,
              h.payload]
            exact hdeliver.withPayload
  | inside mop x =>
      obtain ⟨hfrag, hmop, hbuf, hcompr⟩ := h.holding
      rw [Assembly.step]
      by_cases hcont : f.op = .continuation
      · -- the message under way grows by what is in the payload buffer
        have happ : c.appended.Serving role (.inside mop (x ++ buffer)) buffer :=
          ⟨h.live.congr rfl rfl rfl rfl, h.role_eq, h.deflate,
            ⟨hfrag, hmop, by rw [← hbuf, ← h.payload]; rfl, hcompr⟩, h.payload, h.writes⟩
        simp only [hcont, if_true, handleOpcode]
        rw [handleContinuation_of_fragmented p hfrag, hfin, hmop, hbuf, hcompr, h.payload,
          deliverMessage_plain]
        cases f.fin with
        | false => exact ⟨rfl, by simp [appended], by simp [framesBytes, appended], happ⟩
        | true =>
            have hdeliver := deliverPlain_answered hw happ mop (x ++ buffer)
            simp only [if_true] at hdeliver ⊢
            split_ifs at hdeliver ⊢ with hbad
            · exact ⟨hdeliver.input, hdeliver.events, hdeliver.wire, hdeliver.reset.next⟩
            · exact ⟨hdeliver.input, hdeliver.events, hdeliver.wire, hdeliver.reset.next⟩
      · -- a new message while one is under way
        rw [handleOpcode_data p c hctl hcont, handleData, hfrag]
        simp only [hcont, if_false, if_true, misplaced]
        exact failWithClose_answered hw h 1002 _

/-- **A frame** does to the connection what it does to the machine. -/
lemma handleFrame_answered (h : c.Serving role a buffer) (hop : c.currentHeader.op = f.op.toU8)
    (hfin : c.currentHeader.fin = f.fin) (hrsv : c.currentHeader.rsv1 = false) :
    Answered p role c (handleFrame p c) (answer a buffer f) buffer c.input := by
  cases hfop : f.op with
  | ping =>
      rw [handleFrame_of_opcode p hop, answer, hfop, handleOpcode, handlePingFrame_eq hw h.live]
      refine ⟨rfl, ?_, ?_, ?_⟩
      · simp [sent, Reply.events]
      · simp [sent, outFrame, outboundMask, h.role_eq, h.writes, h.payload, framesBytes, frameBytes,
          Reply.frame?]
      · refine ⟨h.live.congr rfl rfl rfl rfl, h.role_eq, h.deflate, ?_, h.payload,
          by simp [sent, h.writes]⟩
        have hold := h.holding
        cases a <;> exact hold
  | pong =>
      rw [handleFrame_of_opcode p hop, answer, hfop, handleOpcode]
      exact ⟨rfl, by simp, by simp [framesBytes], h⟩
  | close =>
      rw [handleFrame_of_opcode p hop, answer, hfop, handleOpcode, handleCloseFrame_eq hw h.live]
      refine ⟨rfl, ?_, ?_, rfl⟩
      · simp [sent, emitClose, Reply.events, h.payload]
      · simp [sent, emitClose, outFrame, outboundMask, h.role_eq, h.writes, h.payload, framesBytes,
          frameBytes, Reply.frame?]
  | continuation =>
      exact handleFrame_data_answered hw h (by rw [hfop]; rfl) hop hfin hrsv
  | text => exact handleFrame_data_answered hw h (by rw [hfop]; rfl) hop hfin hrsv
  | binary => exact handleFrame_data_answered hw h (by rw [hfop]; rfl) hop hfin hrsv

lemma readOneFrame_answered (h : c.Serving role a buffer)
    (hin : c.input = (f.wire role).encode ++ rest) :
    Answered p role c (readOneFrame p c).1 (answer a (bufferAfter buffer f.payload) f)
      (bufferAfter buffer f.payload) rest := by
  have hread := handleFrame_answered hw (h.withFrame f rest) rfl rfl rfl
  rw [readOneFrame_of_valid p h.live.isOpen hin f.fits (headerFailure_wire h.role_eq)]
  exact ⟨hread.input, hread.events, hread.wire, hread.next⟩

omit hw in
lemma readOneFrame_of_closed (h : c.isOpen = false) : readOneFrame p c = (c, false) := by
  rw [readOneFrame, h]
  rfl

end Connection

open Connection

variable {role : Role} {c : Connection} {a : Assembly} {buffer rest : List UInt8}

/-- The connection after so many calls of `read_one_frame`. -/
def readFrames (p : Platform) : ℕ → Connection → Connection
  | 0, c => c
  | n + 1, c => readFrames p n (readOneFrame p c).1

lemma readFrames_of_closed (h : c.isOpen = false) (n : ℕ) : readFrames p n c = c := by
  induction n with
  | zero => rfl
  | succ n ih => rw [readFrames, readOneFrame_of_closed h, ih]

/-- **The connection runs the machine.** -/
lemma run_react (hw : ∀ i, p.write i = true) (fs : List (InFrame p)) (h : c.Serving role a buffer)
    (hin : c.input = fs.flatMap (fun f => (f.wire role).encode) ++ rest) :
    (readFrames p fs.length c).events =
        c.events ++ (react a buffer fs).flatMap Reply.events ∧
      (readFrames p fs.length c).wire = c.wire ++
        framesBytes p role c.wire.length ((react a buffer fs).filterMap Reply.frame?) := by
  induction fs generalizing c a buffer with
  | nil => simp [readFrames, react, framesBytes]
  | cons f fs ih =>
      rw [List.flatMap_cons, List.append_assoc] at hin
      have hone := readOneFrame_answered hw h hin
      rw [List.length_cons, readFrames, react]
      generalize (readOneFrame p c).1 = c' at hone
      generalize answer a (bufferAfter buffer f.payload) f = r at hone
      obtain ⟨reply, next⟩ := r
      obtain ⟨hinput, hevents, hwire, hnext⟩ := hone
      have hframes : reply.toList.filterMap Reply.frame? = (reply.bind Reply.frame?).toList := by
        cases reply with
        | none => rfl
        | some r => cases hr : r.frame? <;> simp [hr]
      cases next with
      | none =>
          rw [readFrames_of_closed hnext, hevents, hwire]
          simp only [List.append_nil, hframes, and_self]
      | some a' =>
          obtain ⟨ihevents, ihwire⟩ := ih hnext hinput
          rw [ihevents, ihwire, hevents, hwire]
          simp only [List.flatMap_append, List.filterMap_append, hframes, framesBytes_append,
            List.append_assoc, List.length_append, true_and]
          simp [framesBytes]

/-! ## Sessions are delivered -/

/-- The message given to `on_message`. -/
def Event.message? : Event → Option (List UInt8 × UInt8)
  | onMessage payload op => some (payload, op)
  | _ => none

/-- The status code given to `on_close`. -/
def Event.closeCode? : Event → Option UInt16
  | onClose code _ => some code
  | _ => none

namespace Session

/-- The byte stream of a session to an endpoint of the given role. -/
def bytes (s : Session p) (role : Role) : List UInt8 :=
  s.frames.flatMap fun f => (f.wire role).encode

/-- The frames that answer a session: the pongs, and the echo of the close. -/
def answers (s : Session p) : List (Opcode × List UInt8) :=
  (s.frames.filterMap InFrame.pingData).map (fun d => (.pong, d)) ++
    (s.frames.filterMap InFrame.closeCode).map fun code => (.close, closeCodeBytes code)

/-- A new connection that has read a session has delivered each message once, in order, with its
opcode and its own payload, has answered each ping with its payload, and has reported and echoed
the status code of the close. -/
structure Delivered (s : Session p) (role : Role) (c : Connection) : Prop where
  messages : c.events.filterMap Event.message? = s.msgs.map fun m => (m.payload, m.op.toU8)
  wire : c.wire = framesBytes p role 0 s.answers
  codes : c.events.filterMap Event.closeCode? = s.frames.filterMap InFrame.closeCode

/-- No frame without payload, other than a pong, comes after a frame with payload; a close without
payload may, if the last payload before it reads as the status code 1000. -/
def Clean (s : Session p) : Prop := CleanFrom [] s.frames

end Session

lemma filterMap_message?_events (replies : List Reply) :
    (replies.flatMap Reply.events).filterMap Event.message? =
      (replies.filterMap Reply.message?).map fun m => (m.2, m.1.toU8) := by
  induction replies with
  | nil => rfl
  | cons r replies ih =>
      rw [List.flatMap_cons, List.filterMap_append, ih]
      cases r <;> rfl

lemma filterMap_closeCode?_events (replies : List Reply) :
    (replies.flatMap Reply.events).filterMap Event.closeCode? = replies.filterMap Reply.code? := by
  induction replies with
  | nil => rfl
  | cons r replies ih =>
      rw [List.flatMap_cons, List.filterMap_append, ih]
      cases r <;> rfl

/-- **When a session is delivered.**  A new connection that reads the frames of a session answers
it as it should exactly when no frame without payload shows an earlier payload. -/
theorem session_delivered_iff (p : Platform) (hw : ∀ i, p.write i = true) (role : Role)
    (s : Session p) (rest : List UInt8) :
    s.Delivered role
        (readFrames p s.frames.length (Connection.new role false (s.bytes role ++ rest))) ↔
      s.Clean := by
  have hstart : (Connection.new role false (s.bytes role ++ rest)).Serving role .idle [] :=
    ⟨⟨rfl, rfl, rfl, rfl⟩, rfl, rfl, rfl, rfl, rfl⟩
  obtain ⟨hevents, hwire⟩ := run_react hw s.frames hstart rfl
  have hrun : Assembly.idle.run (s.frames.filterMap InFrame.piece) =
      some (.idle, s.msgs.map fun m => (m.op, m.payload)) := by
    rw [s.pieces, Assembly.run_pieces]
  have hmatch := react_matches_iff s.frames [] .idle hrun
    (by simpa using fun m hm => s.text m hm) s.closesLast
  simp only [true_and] at hmatch
  rw [Session.Clean, ← hmatch]
  generalize react Assembly.idle [] s.frames = replies at hevents hwire
  -- the model records the message before its opcode, the session the other way round
  have hpair : Function.Injective fun m : Opcode × List UInt8 => (m.2, m.1.toU8) := by
    rintro ⟨op, x⟩ ⟨op', y⟩ h
    simp only [Prod.mk.injEq] at h
    exact Prod.ext (Opcode.toU8_injective h.2) h.1
  have hmsgs : (s.msgs.map fun m => (m.payload, m.op.toU8)) =
      (s.msgs.map fun m => (m.op, m.payload)).map fun m => (m.2, m.1.toU8) := by
    rw [List.map_map]
    rfl
  constructor
  · rintro ⟨h1, h2, h3⟩
    rw [hevents, Connection.new, List.nil_append] at h1 h3
    rw [filterMap_message?_events, hmsgs] at h1
    rw [filterMap_closeCode?_events] at h3
    rw [hwire] at h2
    exact ⟨List.map_injective_iff.mpr hpair h1, framesBytes_injective h2, h3⟩
  · rintro ⟨h1, h2, h3⟩
    refine ⟨?_, ?_, ?_⟩
    · rw [hevents, Connection.new, List.nil_append, filterMap_message?_events, h1, hmsgs]
    · rw [hwire, h2]
      rfl
    · rw [hevents, Connection.new, List.nil_append, filterMap_closeCode?_events, h3]

/-- `Hi!` in two fragments with an empty pong between them, an empty ping before it, and a close. -/
def greeting : Session plainPlatform where
  msgs := [⟨.text, [0x48, 0x69], [[0x21]], .inl rfl⟩]
  frames := [⟨.ping, true, ⟨1, 2, 3, 4⟩, [], by decide +kernel⟩,
    ⟨.text, false, ⟨5, 6, 7, 8⟩, [0x48, 0x69], by decide +kernel⟩,
    ⟨.pong, true, ⟨1, 2, 3, 4⟩, [], by decide +kernel⟩,
    ⟨.continuation, true, ⟨9, 8, 7, 6⟩, [0x21], by decide +kernel⟩,
    ⟨.close, true, ⟨0, 0, 0, 0⟩, [0x03, 0xe9], by decide +kernel⟩]
  pieces := by decide
  text := by
    intro m hm _
    simp only [List.mem_cons, List.not_mem_nil, or_false] at hm
    subst hm
    exact ⟨['H', 'i', '!'], by decide +kernel⟩
  closesLast := by
    simp only [ClosesLast]
    decide

theorem session_delivered_greeting :
    greeting.Delivered .server
      (readFrames plainPlatform 5 (Connection.new .server false (greeting.bytes .server ++ []))) :=
  (session_delivered_iff plainPlatform (fun _ => rfl) .server greeting []).mpr
    (by simp [Session.Clean, greeting, CleanFrom, bufferAfter])

/-- `Hi`, and then an empty ping. -/
def hiThenPing : Session plainPlatform where
  msgs := [⟨.text, [0x48, 0x69], [], .inl rfl⟩]
  frames := [⟨.text, true, ⟨1, 2, 3, 4⟩, [0x48, 0x69], by decide +kernel⟩,
    ⟨.ping, true, ⟨5, 6, 7, 8⟩, [], by decide +kernel⟩]
  pieces := by decide
  text := by
    intro m hm _
    simp only [List.mem_cons, List.not_mem_nil, or_false] at hm
    subst hm
    exact ⟨['H', 'i'], by decide +kernel⟩
  closesLast := by
    simp only [ClosesLast]
    decide

/-- The empty ping is answered with a pong that carries `Hi`. -/
theorem hiThenPing_not_delivered :
    let c := readFrames plainPlatform 2 (Connection.new .server false (hiThenPing.bytes .server))
    c.wire = [[0x8a, 0x02, 0x48, 0x69]] ∧ ¬hiThenPing.Delivered .server c := by
  refine ⟨by decide +kernel, fun h => ?_⟩
  have hwire := h.wire
  revert hwire
  decide +kernel

end Wscpp.Cpp
