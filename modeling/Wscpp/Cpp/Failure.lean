import Wscpp.Cpp.Receive
import Wscpp.Frame.Grammar

/-!
# Failures of the wscpp reader

What `read_one_frame` does with any complete frame that arrives, valid or not, with
permessage-deflate or without.  `fate` says it in one place: the frame makes the connection fail
with a code and a reason, or closes it, or is taken, with the message under way after it and the
message it completes.  `readOneFrame_fate` shows that the connection does what `fate` says.

The failures are then told from the stream alone.  `Violation` lists the rules that a frame can
break, given the frames before it; a frame that breaks one makes the connection fail once, with
one CLOSE frame and one call of each callback, and nothing is read after it
(`violation_closes`).
-/

namespace Wscpp.Cpp

open Utf8

namespace Connection

/-! ## The header -/

lemma ite_some_eq_none {α : Type} {b : Bool} {x : α} {r : Option α} :
    (if b then some x else r) = none ↔ b = false ∧ r = none := by
  cases b <;> simp

/-- The frames that `validate_frame_header` lets pass are those that keep the rules. -/
lemma headerFailure_eq_none_iff (p : Platform) (c : Connection) (f : WireFrame)
    (rest : List UInt8) :
    headerFailure p (c.withHeader f rest) = none ↔
      headerOk c.role (p.deflate && c.permessageDeflate) f = true := by
  have hreserved := reservedBits_iff p.deflate c.permessageDeflate f.rsv1 f.rsv2 f.rsv3 f.begins
    f.continues not_begins_of_continues
  have hknown :
      (!(decide (f.op ≤ 0x02) || (decide (0x08 ≤ f.op) && decide (f.op ≤ 0x0A)))) = false ↔
        f.known = true := by
    rw [WireFrame.known, Opcode.fromU8_isSome_iff f.op]
    simp only [Bool.not_eq_false', Bool.or_eq_true, Bool.and_eq_true, decide_eq_true_eq]
  have hmask : (c.role == .server && !f.key.isSome) = false ∧
      (c.role == .client && f.key.isSome) = false ↔ maskOk c.role f = true := by
    rw [maskOk]
    cases c.role <;> cases f.key.isSome <;> decide
  rw [headerFailure]
  simp only [ite_some_eq_none]
  simp only [withHeader, headerOf]
  rw [headerOk, Bool.and_eq_true, Bool.and_eq_true, reservedOk, ← hreserved, ← hknown, ← hmask,
    WireFrame.begins, WireFrame.continues]
  tauto

/-! ## The fate of a frame -/

end Connection

/-- What a frame does to the connection that reads it. -/
inductive Fate
  | failed (code : UInt16) (reason : String)
  | closed
  | taken (next : Option Unfinished) (message : Option (UInt8 × List UInt8))

/-- The content of a message, if it can be decompressed. -/
def inflated (p : Platform) (q : Unfinished) : Option (List UInt8) :=
  if q.compressed then decompressMessage p.zlib q.payload else some q.payload

/-- The fate of a frame that completes a message, with `next` under way after it. -/
def messageFate (p : Platform) (next : Option Unfinished) (q : Unfinished) : Fate :=
  match inflated p q with
  | none => .failed 1002 "permessage-deflate decompression failed"
  | some plain =>
      if q.op == Opcode.text.toU8 && !isValidUtf8 p.host plain then
        .failed 1007 "Invalid UTF-8 in text frame"
      else .taken next (some (q.op, plain))

/-- The fate of a frame whose header passes, with `m` under way and `data` in the payload
buffer. -/
def fate (p : Platform) (m : Option Unfinished) (f : WireFrame) (data : List UInt8) : Fate :=
  if f.op == Opcode.close.toU8 then .closed
  else
    match assemble m f data with
    | none =>
        .failed 1002 (if f.continues then "Unexpected continuation frame"
          else "New data frame before fragmented message completed")
    | some (next, none) => .taken next none
    | some (next, some q) => messageFate p next q

namespace Connection

/-- The reader between two frames, with `m` under way. -/
structure Between (p : Platform) (role : Role) (deflate : Bool) (c : Connection)
    (m : Option Unfinished) : Prop where
  live : c.Live
  role_eq : c.role = role
  deflate_eq : c.permessageDeflate = deflate
  fragmented : c.fragmented = m.isSome
  held : ∀ q ∈ m, c.messageOpcode = q.op ∧ c.messageBuffer = q.payload ∧
    c.messageCompressed = q.compressed
  negotiated : ∀ q ∈ m, q.compressed = true → (p.deflate && deflate) = true

/-- One failure: one CLOSE frame, one `on_error`, one `on_close`. -/
structure FailedWith (p : Platform) (c c' : Connection) (code : UInt16) (reason : String) :
    Prop where
  wire : c'.wire = c.wire ++ [outFrame p c .close (closeCodeBytes code ++ strBytes reason)]
  events : c'.events = c.events ++ [.onError (.reason reason), .onClose code (strBytes reason)]
  isOpen : c'.isOpen = false

lemma FailedWith.not_open {p : Platform} {c c' : Connection} {code : UInt16} {reason : String}
    (h : FailedWith p c c' code reason) : c'.isOpen ≠ true := by
  rw [h.isOpen]
  exact Bool.false_ne_true

/-- The connection has done what a fate says. -/
def Meets (p : Platform) (role : Role) (deflate : Bool) (c c' : Connection) (rest : List UInt8) :
    Fate → Prop
  | .failed code reason => FailedWith p c c' code reason
  | .closed => c'.isOpen = false ∧ ∃ code reason, c'.events = c.events ++ [.onClose code reason]
  | .taken next message => Between p role deflate c' next ∧ c'.input = rest ∧
      c'.events = c.events ++ message.toList.map fun m => .onMessage m.2 m.1

variable {p : Platform} {role : Role} {deflate : Bool} {c : Connection} {m : Option Unfinished}
  {f : WireFrame} {rest : List UInt8}

lemma meets_of_withFrame {c' : Connection} {t : Fate}
    (h : Meets p role deflate (c.withFrame f rest) c' rest t) :
    Meets p role deflate c c' rest t := by
  cases t with
  | failed code reason => exact ⟨h.wire, h.events, h.isOpen⟩
  | closed => exact h
  | taken next message => exact h

variable (hw : ∀ i, p.write i = true)

include hw

lemma failWithClose_failedWith (h : c.Live) (code : UInt16) (reason : String) :
    FailedWith p c (failWithClose p c code reason) code reason := by
  rw [failWithClose_eq hw h]
  exact ⟨rfl, rfl, rfl⟩

/-- A complete message is delivered or makes the connection fail. -/
lemma deliverMessage_fate (h : c.Live) (next : Option Unfinished) (q : Unfinished)
    (hneg : q.compressed = true → p.deflate = true ∧ c.permessageDeflate = true) :
    (∃ code reason, messageFate p next q = .failed code reason ∧
        FailedWith p c (deliverMessage p c q.payload q.op q.compressed).1 code reason) ∨
      ∃ plain, messageFate p next q = .taken next (some (q.op, plain)) ∧
        (deliverMessage p c q.payload q.op q.compressed).1 =
          { c with events := c.events ++ [.onMessage plain q.op] } := by
  have hplain : ∀ plain, inflated p q = some plain →
      (∃ code reason, messageFate p next q = .failed code reason ∧
        FailedWith p c (deliverPlain p c plain q.op) code reason) ∨
      ∃ plain', messageFate p next q = .taken next (some (q.op, plain')) ∧
        deliverPlain p c plain q.op =
          { c with events := c.events ++ [.onMessage plain' q.op] } := by
    intro plain hsome
    rw [messageFate, hsome, deliverPlain]
    simp only
    split_ifs with hbad
    · exact .inl ⟨1007, _, rfl, failWithClose_failedWith hw h 1007 _⟩
    · exact .inr ⟨plain, rfl, rfl⟩
  cases hz : q.compressed with
  | false =>
      rw [deliverMessage_plain]
      exact hplain q.payload (by simp [inflated, hz])
  | true =>
      obtain ⟨hdeflate, hpermessage⟩ := hneg hz
      rw [deliverMessage_compressed p hdeflate hpermessage]
      cases hdec : decompressMessage p.zlib q.payload with
      | none =>
          left
          refine ⟨1002, _, ?_, failWithClose_failedWith hw h 1002 _⟩
          simp [messageFate, inflated, hz, hdec]
      | some plain => exact hplain plain (by simp [inflated, hz, hdec])

/-- **A data frame** that passed the header check. -/
lemma handleData_fate (h : Between p role deflate c m) (hbegins : f.begins = true)
    (hop : c.currentHeader.op = f.op) (hfin : c.currentHeader.fin = f.fin)
    (hrsv : c.currentHeader.rsv1 = f.rsv1)
    (hneg : f.rsv1 = true → (p.deflate && deflate) = true) :
    Meets p role deflate c (handleData p c) c.input (fate p m f c.payloadBuffer) := by
  have hcont : f.continues = false := by
    by_contra hc
    simp [not_begins_of_continues (Bool.not_eq_false _ ▸ hc)] at hbegins
  have hclose : (f.op == Opcode.close.toU8) = false := by
    simp only [WireFrame.begins, Bool.or_eq_true, beq_iff_eq] at hbegins
    rcases hbegins with hb | hb <;> rw [hb] <;> decide
  have hfrag := h.fragmented
  rw [fate, hclose, assemble.eq_def, hcont, hbegins]
  cases m with
  | some q =>
      simp only [Option.isSome_some] at hfrag
      rw [handleData, if_pos hfrag]
      -- a message is under way already
      exact failWithClose_failedWith hw h.live 1002 _
  | none =>
      simp only [Option.isSome_none] at hfrag
      rw [handleData, if_neg (by simp [hfrag]), hfin, hop, hrsv]
      cases f.fin with
      | false =>
          -- the first of several frames: the message begins
          refine ⟨⟨h.live.congr rfl rfl rfl rfl, h.role_eq, h.deflate_eq, rfl, ?_, ?_⟩, rfl,
            by simp⟩
          · simp
          · simpa using hneg
      | true =>
          have hneg' : f.rsv1 = true → p.deflate = true ∧ c.permessageDeflate = true := by
            rw [h.deflate_eq]
            simpa using hneg
          -- the only frame: its content is judged at once
          rcases deliverMessage_fate hw h.live none ⟨f.op, c.payloadBuffer, f.rsv1⟩ hneg' with
            ⟨code, reason, hfate, hfail⟩ | ⟨plain, hfate, heq⟩
          · simp only [Bool.false_eq_true, if_false, if_true, hfate]
            exact ⟨hfail.wire, hfail.events, hfail.isOpen⟩
          · simp only [Bool.false_eq_true, if_false, if_true, hfate]
            generalize deliverMessage p c c.payloadBuffer f.op f.rsv1 = r at heq
            obtain ⟨d, payload⟩ := r
            simp only at heq
            subst heq
            exact ⟨⟨h.live.congr rfl rfl rfl rfl, h.role_eq, h.deflate_eq, hfrag, by simp,
              by simp⟩, rfl, by simp⟩

/-- **A continuation frame** that passed the header check. -/
lemma handleContinuation_fate (h : Between p role deflate c m) (hcont : f.continues = true)
    (hfin : c.currentHeader.fin = f.fin) :
    Meets p role deflate c (handleContinuation p c) c.input (fate p m f c.payloadBuffer) := by
  have hclose : (f.op == Opcode.close.toU8) = false := by
    simp only [WireFrame.continues, beq_iff_eq] at hcont
    rw [hcont]
    decide
  have hfrag := h.fragmented
  rw [fate, hclose, assemble.eq_def, hcont]
  cases m with
  | none =>
      simp only [Option.isSome_none] at hfrag
      -- there is no message to continue
      rw [handleContinuation, if_pos (by simp [hfrag])]
      exact failWithClose_failedWith hw h.live 1002 _
  | some q =>
      simp only [Option.isSome_some] at hfrag
      obtain ⟨hmop, hbuf, hcompr⟩ := h.held q rfl
      have hneg := h.negotiated q rfl
      have hlive : c.appended.Live := h.live.congr rfl rfl rfl rfl
      rw [handleContinuation_of_fragmented p hfrag, hfin, hmop, hbuf, hcompr]
      cases f.fin with
      | false =>
          refine ⟨⟨hlive, h.role_eq, h.deflate_eq, hfrag, ?_, ?_⟩, rfl, by simp [appended]⟩
          · simp [appended, hmop, hbuf, hcompr]
          · simpa using hneg
      | true =>
          have hneg' : q.compressed = true →
              p.deflate = true ∧ c.appended.permessageDeflate = true := by
            rw [show c.appended.permessageDeflate = deflate from h.deflate_eq]
            simpa using hneg
          -- the last frame: the content of all of them is judged
          rcases deliverMessage_fate hw hlive none
              { q with payload := q.payload ++ c.payloadBuffer } hneg' with
            ⟨code, reason, hfate, hfail⟩ | ⟨plain, hfate, heq⟩
          · simp only [Bool.false_eq_true, if_false, if_true, hfate]
            exact ⟨hfail.wire, hfail.events, hfail.isOpen⟩
          · simp only [Bool.false_eq_true, if_false, if_true, hfate, heq]
            exact ⟨⟨h.live.congr rfl rfl rfl rfl, h.role_eq, h.deflate_eq, rfl, by simp, by simp⟩,
              rfl, by simp [resetFragmentState, appended]⟩

/-- **A frame that passed the header check** meets its fate. -/
lemma handleFrame_fate (h : Between p role deflate c m)
    (hok : headerOk role (p.deflate && deflate) f = true) (hop : c.currentHeader.op = f.op)
    (hfin : c.currentHeader.fin = f.fin) (hrsv : c.currentHeader.rsv1 = f.rsv1) :
    Meets p role deflate c (handleFrame p c) c.input (fate p m f c.payloadBuffer) := by
  simp only [headerOk, Bool.and_eq_true] at hok
  obtain ⟨⟨hknown, hreserved⟩, -⟩ := hok
  obtain ⟨op, hsome⟩ := Option.isSome_iff_exists.mp hknown
  have hfop : f.op = op.toU8 := Opcode.fromU8_eq_some.mp hsome
  have hneg : f.rsv1 = true → (p.deflate && deflate) = true := by
    intro hset
    simp only [reservedOk, hset, Bool.and_eq_true, Bool.not_true, Bool.false_or] at hreserved ⊢
    exact hreserved.2.1
  rw [handleFrame_of_opcode p (hop.trans hfop)]
  cases op with
  | close =>
      rw [fate, hfop, handleOpcode, handleCloseFrame_eq hw h.live]
      exact ⟨rfl, _, _, rfl⟩
  | ping =>
      have hfate : fate p m f c.payloadBuffer = .taken m none := by
        simp [fate, assemble, WireFrame.continues, WireFrame.begins, hfop, Opcode.toU8]
      rw [hfate, handleOpcode, handlePingFrame_eq hw h.live]
      exact ⟨⟨h.live.congr rfl rfl rfl rfl, h.role_eq, h.deflate_eq, h.fragmented, h.held,
        h.negotiated⟩, rfl, by simp [sent]⟩
  | pong =>
      have hfate : fate p m f c.payloadBuffer = .taken m none := by
        simp [fate, assemble, WireFrame.continues, WireFrame.begins, hfop, Opcode.toU8]
      rw [hfate, handleOpcode]
      exact ⟨h, rfl, by simp⟩
  | continuation =>
      exact handleContinuation_fate hw h (by simp [WireFrame.continues, hfop]) hfin
  | text => exact handleData_fate hw h (by simp [WireFrame.begins, hfop]) hop hfin hrsv hneg
  | binary => exact handleData_fate hw h (by simp [WireFrame.begins, hfop]) hop hfin hrsv hneg

/-- **What `read_one_frame` does with a frame**, valid or not. -/
lemma readOneFrame_fate (h : Between p role deflate c m)
    (hfits : f.payload.length < 2 ^ (p.bits - 1)) (hin : c.input = f.encode ++ rest) :
    if headerOk role (p.deflate && deflate) f then
      Meets p role deflate c (readOneFrame p c).1 rest
        (fate p m f (bufferAfter c.payloadBuffer f.payload))
    else ∃ reason,
      headerFailure p (c.withHeader f (maskedWith f.key f.payload ++ rest)) = some reason ∧
        FailedWith p c (readOneFrame p c).1 1002 reason := by
  have hiff := headerFailure_eq_none_iff p c f (maskedWith f.key f.payload ++ rest)
  rw [h.role_eq, h.deflate_eq] at hiff
  split_ifs with hok
  · rw [readOneFrame_of_valid p h.live.isOpen hin hfits (hiff.mpr hok)]
    have hread : Between p role deflate (c.withFrame f rest) m :=
      ⟨h.live.congr rfl rfl rfl rfl, h.role_eq, h.deflate_eq, h.fragmented, h.held, h.negotiated⟩
    exact meets_of_withFrame (handleFrame_fate hw hread hok rfl rfl rfl)
  · obtain ⟨reason, hreason⟩ := Option.ne_none_iff_exists'.mp fun hnone => hok (hiff.mp hnone)
    refine ⟨reason, hreason, ?_⟩
    rw [readOneFrame_of_invalid p h.live.isOpen hin hreason]
    have hlive : (c.withHeader f (maskedWith f.key f.payload ++ rest)).Live :=
      h.live.congr rfl rfl rfl rfl
    have hfail := failWithClose_failedWith hw hlive 1002 reason
    exact ⟨hfail.wire, hfail.events, hfail.isOpen⟩

end Connection

/-! ## Runs -/

/-- A frame that arrives, valid or not; its payload fits a vector. -/
structure Inbound (p : Platform) extends WireFrame where
  fits : payload.length < 2 ^ (p.bits - 1)

open Connection

variable {p : Platform} {role : Role} {deflate : Bool}

/-- The byte stream of a sequence of frames. -/
def streamOf (frames : List (Inbound p)) : List UInt8 := frames.flatMap fun f => f.encode

/-- A new connection that has read a sequence of frames, with `rest` behind them. -/
def reached (p : Platform) (role : Role) (deflate : Bool) (frames : List (Inbound p))
    (rest : List UInt8) : Connection :=
  readFrames p frames.length (Connection.new role deflate (streamOf frames ++ rest))

/-- One frame of a run that stays open. -/
lemma between_of_open (hw : ∀ i, p.write i = true) {c : Connection} {m : Option Unfinished}
    (f : Inbound p) {rest : List UInt8} (h : Between p role deflate c m)
    (hin : c.input = f.encode ++ rest) (hopen : (readOneFrame p c).1.isOpen = true) :
    headerOk role (p.deflate && deflate) f.toWireFrame = true ∧
      ∃ next q, assemble m f.toWireFrame (bufferAfter c.payloadBuffer f.payload) = some (next, q) ∧
        Between p role deflate (readOneFrame p c).1 next ∧ (readOneFrame p c).1.input = rest := by
  have hfate := readOneFrame_fate hw h f.fits hin
  split_ifs at hfate with hok
  · refine ⟨hok, ?_⟩
    rw [fate] at hfate
    split at hfate
    · rw [hfate.1] at hopen
      simp at hopen
    · split at hfate
      · exact absurd hopen hfate.not_open
      · rename_i next hsome
        exact ⟨next, none, hsome, hfate.1, hfate.2.1⟩
      · rename_i next q hsome
        refine ⟨next, some q, hsome, ?_⟩
        rw [messageFate] at hfate
        split at hfate
        · exact absurd hopen hfate.not_open
        · split at hfate
          · exact absurd hopen hfate.not_open
          · exact ⟨hfate.1, hfate.2.1⟩
  · obtain ⟨reason, -, hfail⟩ := hfate
    exact absurd hopen hfail.not_open

/-- **A run that stays open** has the message under way that its frames have brought. -/
lemma between_of_readFrames (hw : ∀ i, p.write i = true) (fs : List (Inbound p)) {c : Connection}
    {m : Option Unfinished} {rest : List UInt8} (h : Between p role deflate c m)
    (hin : c.input = streamOf fs ++ rest) (hopen : (readFrames p fs.length c).isOpen = true) :
    ∃ m', Between p role deflate (readFrames p fs.length c) m' ∧
      (readFrames p fs.length c).input = rest ∧
      m'.isSome = ((fs.map Inbound.toWireFrame).filter
        (headerOk role (p.deflate && deflate))).foldl underwayAfter m.isSome ∧
      ((∀ f ∈ fs, f.payload ≠ []) →
        m' = (fs.map Inbound.toWireFrame).foldl progressAfter m) := by
  induction fs generalizing c m with
  | nil => exact ⟨m, h, hin, rfl, fun _ => rfl⟩
  | cons f fs ih =>
      rw [streamOf, List.flatMap_cons, List.append_assoc] at hin
      rw [List.length_cons, readFrames] at hopen ⊢
      have hstep : (readOneFrame p c).1.isOpen = true := by
        by_contra hclosed
        rw [Bool.not_eq_true] at hclosed
        rw [readFrames_of_closed hclosed, hclosed] at hopen
        simp at hopen
      obtain ⟨hok, next, q, hsome, hnext, hinput⟩ := between_of_open hw f h hin hstep
      obtain ⟨m', hm', hrest, hflag, hprog⟩ := ih hnext hinput hopen
      refine ⟨m', hm', hrest, ?_, fun hne => ?_⟩
      · rw [hflag, List.map_cons, List.filter_cons_of_pos hok, List.foldl_cons,
          isSome_of_assemble hsome]
      · rw [List.forall_mem_cons] at hne
        have hdata : bufferAfter c.payloadBuffer f.payload = f.payload :=
          bufferAfter_eq_iff.mpr fun h => absurd h hne.1
        rw [hdata] at hsome
        rw [hprog hne.2, List.map_cons, List.foldl_cons, progressAfter, hsome]

lemma between_reached (hw : ∀ i, p.write i = true) {fs : List (Inbound p)} {rest : List UInt8}
    (hopen : (reached p role deflate fs rest).isOpen = true) :
    ∃ m, Between p role deflate (reached p role deflate fs rest) m ∧
      (reached p role deflate fs rest).input = rest ∧
      m.isSome = underway role (p.deflate && deflate) (fs.map Inbound.toWireFrame) ∧
      ((∀ f ∈ fs, f.payload ≠ []) → m = progress (fs.map Inbound.toWireFrame)) := by
  have hnew : Between p role deflate
      (Connection.new role deflate (streamOf fs ++ rest)) none :=
    ⟨⟨rfl, rfl, rfl, rfl⟩, rfl, rfl, rfl, by simp, by simp⟩
  exact between_of_readFrames hw fs hnew rfl hopen

/-! ## Violations -/

/-- The rules that a frame can break after the frames that brought `m` under way, and the status
code of each. -/
inductive Violation (p : Platform) (role : Role) (deflate : Bool) (m : Option Unfinished)
    (f : WireFrame) : UInt16 → Prop
  | reserved (h : reservedOk (p.deflate && deflate) f = false) : Violation p role deflate m f 1002
  | opcode (h : f.known = false) : Violation p role deflate m f 1002
  | mask (h : maskOk role f = false) : Violation p role deflate m f 1002
  | continuation (h : f.continues = true) (hm : m = none) : Violation p role deflate m f 1002
  | interleaved (h : f.begins = true) (hm : m ≠ none) : Violation p role deflate m f 1002
  | inflate {next : Option Unfinished} {q : Unfinished}
      (h : assemble m f f.payload = some (next, some q)) (hz : q.compressed = true)
      (hbad : decompressMessage p.zlib q.payload = none) : Violation p role deflate m f 1002
  | text {next : Option Unfinished} {q : Unfinished} {plain : List UInt8}
      (hok : headerOk role (p.deflate && deflate) f = true)
      (h : assemble m f f.payload = some (next, some q)) (hop : q.op = Opcode.text.toU8)
      (hplain : inflated p q = some plain) (hbad : ¬ValidUtf8 plain) :
      Violation p role deflate m f 1007

lemma fate_of_completes {m next : Option Unfinished} {f : WireFrame} {data : List UInt8}
    {q : Unfinished} (h : assemble m f data = some (next, some q)) :
    fate p m f data = messageFate p next q := by
  have hclose : (f.op == Opcode.close.toU8) = false := by
    by_contra hc
    simp only [Bool.not_eq_false, beq_iff_eq] at hc
    simp [assemble, WireFrame.continues, WireFrame.begins, hc, Opcode.toU8] at h
  rw [fate, hclose, h]
  rfl

lemma fate_of_not_inOrder {m : Option Unfinished} {f : WireFrame} {data : List UInt8}
    (h : inOrder m.isSome f = false) : ∃ reason, fate p m f data = .failed 1002 reason := by
  have hclose : (f.op == Opcode.close.toU8) = false := by
    by_contra hc
    simp only [Bool.not_eq_false, beq_iff_eq] at hc
    simp [inOrder, WireFrame.continues, WireFrame.begins, hc, Opcode.toU8] at h
  rw [fate, hclose, assemble_eq_none_iff.mpr h]
  exact ⟨_, rfl⟩

/-- **A violation is a failure** with its code. -/
lemma Violation.fate_eq {m : Option Unfinished} {f : WireFrame} {code : UInt16}
    (h : Violation p role deflate m f code) (hok : headerOk role (p.deflate && deflate) f = true) :
    ∃ reason, fate p m f f.payload = .failed code reason := by
  have hparts := hok
  simp only [headerOk, Bool.and_eq_true] at hparts
  cases h with
  | reserved h => simp [hparts.1.2] at h
  | opcode h => simp [hparts.1.1] at h
  | mask h => simp [hparts.2] at h
  | continuation h hm => exact fate_of_not_inOrder (by simp [inOrder, h, hm])
  | interleaved h hm =>
      exact fate_of_not_inOrder (by simp [inOrder, h, Option.isSome_iff_ne_none.mpr hm])
  | inflate h hz hbad =>
      rw [fate_of_completes h, messageFate, inflated, if_pos hz, hbad]
      exact ⟨_, rfl⟩
  | text hok h hop hplain hbad =>
      rename_i plain
      have hinvalid : isValidUtf8 p.host plain = false := by
        rw [← Bool.not_eq_true]
        exact fun hvalid => hbad ((isValidUtf8_iff p.host plain).mp hvalid)
      rw [fate_of_completes h, messageFate, hplain]
      exact ⟨"Invalid UTF-8 in text frame", by simp [hop, hinvalid]⟩

lemma Violation.code_eq {m : Option Unfinished} {f : WireFrame} {code : UInt16}
    (h : Violation p role deflate m f code) (hok : headerOk role (p.deflate && deflate) f = false) :
    code = 1002 := by
  cases h with
  | text hok' _ _ _ _ => simp [hok] at hok'
  | _ => rfl

/-- `read_one_frame` returns false if it leaves the connection closed. -/
lemma readOneFrame_snd {c : Connection} (h : (readOneFrame p c).1.isOpen = false) :
    (readOneFrame p c).2 = false := by
  rw [readOneFrame] at h ⊢
  split at h
  · rename_i hclosed
    rw [if_pos hclosed]
  · rename_i hopen
    rw [if_neg hopen]
    split at h
    · simp only at h ⊢
      split at h
      · rfl
      · simp only at h ⊢
        rw [h, Bool.false_and]
    · rfl

lemma readLoop_of_closed {c : Connection} (hlive : c.Live)
    (hclosed : (readOneFrame p c).1.isOpen = false) : readLoop p c = (readOneFrame p c).1 := by
  have hsnd := readOneFrame_snd hclosed
  rw [readLoop, readLoopFuel, if_pos (by simp [hlive.isOpen, hlive.isClosing])]
  generalize readOneFrame p c = r at hsnd
  obtain ⟨c', b⟩ := r
  simp only at hsnd
  subst hsnd
  rfl

/-- **Protocol failures close the session.**  From every open state that frames with payload lead
to, a next frame with payload that breaks a rule makes the connection write one CLOSE frame with
the code of that rule, call `on_error` once and `on_close` once, and close; `read_loop` stops,
and nothing is delivered for the frame or for what follows it. -/
theorem violation_closes (p : Platform) (hw : ∀ i, p.write i = true) (role : Role)
    (deflate : Bool) (history : List (Inbound p)) (f : Inbound p) (rest : List UInt8)
    (code : UInt16) (hhistory : ∀ g ∈ history, g.payload ≠ []) (hpayload : f.payload ≠ [])
    (hopen : (reached p role deflate history (f.encode ++ rest)).isOpen = true)
    (hviolation : Violation p role deflate (progress (history.map Inbound.toWireFrame))
      f.toWireFrame code) :
    let c := reached p role deflate history (f.encode ++ rest)
    let c' := (readOneFrame p c).1
    (∃ reason, FailedWith p c c' code reason) ∧ readLoop p c = c' ∧
      ∀ n, readFrames p n c' = c' := by
  intro c c'
  obtain ⟨m, hbetween, hinput, -, hprogress⟩ := between_reached hw hopen
  rw [← hprogress hhistory] at hviolation
  have hdata : bufferAfter c.payloadBuffer f.payload = f.payload :=
    bufferAfter_eq_iff.mpr fun h => absurd h hpayload
  have hfailed : ∃ reason, FailedWith p c c' code reason := by
    have hfate := readOneFrame_fate hw hbetween f.fits hinput
    split_ifs at hfate with hok
    · obtain ⟨reason, heq⟩ := hviolation.fate_eq hok
      rw [hdata, heq] at hfate
      exact ⟨reason, hfate⟩
    · obtain ⟨reason, -, hfail⟩ := hfate
      rw [hviolation.code_eq (by simpa using hok)]
      exact ⟨reason, hfail⟩
  obtain ⟨reason, hfail⟩ := hfailed
  exact ⟨⟨reason, hfail⟩, readLoop_of_closed hbetween.live hfail.isOpen,
    readFrames_of_closed hfail.isOpen⟩

/-- The first byte of a two-byte character, in the first fragment of a text. -/
def firstHalf : Inbound plainPlatform where
  toWireFrame := .emitted false false .text (some ⟨1, 2, 3, 4⟩) [0xC3] (by decide)
  fits := by decide +kernel

/-- A last fragment that does not complete the character. -/
def wrongHalf : Inbound plainPlatform where
  toWireFrame := .emitted true false .continuation (some ⟨5, 6, 7, 8⟩) [0x28] (by decide)
  fits := by decide +kernel

theorem violation_closes_text :
    let c := reached plainPlatform .server false [firstHalf] (wrongHalf.encode ++ [])
    let c' := (readOneFrame plainPlatform c).1
    c.isOpen = true ∧ (∃ reason, FailedWith plainPlatform c c' 1007 reason) ∧
      readLoop plainPlatform c = c' ∧ ∀ n, readFrames plainPlatform n c' = c' := by
  have hopen : (reached plainPlatform .server false [firstHalf] (wrongHalf.encode ++ [])).isOpen =
      true := by
    decide +kernel
  have hcompletes : assemble (progress [firstHalf.toWireFrame]) wrongHalf.toWireFrame
      wrongHalf.payload = some (none, some ⟨Opcode.text.toU8, [0xC3, 0x28], false⟩) := by
    decide
  have hbad : ¬ValidUtf8 [0xC3, 0x28] := by
    rw [← isValidUtf8_iff .little]
    decide
  exact ⟨hopen, violation_closes plainPlatform (fun _ => rfl) .server false [firstHalf] wrongHalf []
    1007 (by simp [firstHalf, WireFrame.emitted]) (by simp [wrongHalf, WireFrame.emitted]) hopen
    (.text (by decide) hcompletes rfl rfl hbad)⟩

end Wscpp.Cpp
