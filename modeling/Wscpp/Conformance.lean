import Wscpp.Cpp.Failure
import Wscpp.Rs.Closing

/-!
# The frames both connections accept

wscpp and ws-rs check an inbound frame in different places: wscpp in `validate_frame_header` and
`handle_frame`, ws-rs in the parser, in `validate_incoming` and in `read_message`.  The rules come
out the same.  From every open state that a sequence of frames leads to, either connection refuses
the next frame exactly when it breaks one of the rules of `Grammatical`: the opcode, the reserved
bits, the mask, and the order of the frames of a message (`accepts_iff_grammatical`).

A refusal is a failure for any other reason than the content of a message, that is, than text that
is not UTF-8 or data that cannot be decompressed.

RFC 6455 has more rules: a control frame is not fragmented and has at most 125 bytes, a length is
written in as few bytes as possible, and a CLOSE frame has no payload or at least two bytes.
Neither implementation looks at these (`Rfc`).
-/

namespace Wscpp

/-! ## The rules -/

/-- The rules that are checked, for a receiver of the given role, with permessage-deflate in use
or not, and with a message under way or not. -/
structure Grammatical (role : Role) (deflate underway : Bool) (f : WireFrame) : Prop where
  opcode : f.op = 0x0 ∨ f.op = 0x1 ∨ f.op = 0x2 ∨ f.op = 0x8 ∨ f.op = 0x9 ∨ f.op = 0xA
  reserved : f.rsv2 = false ∧ f.rsv3 = false ∧
    (f.rsv1 = true → deflate = true ∧ (f.op = 0x1 ∨ f.op = 0x2))
  mask : f.key.isSome = true ↔ role = .server
  continuation : f.op = 0x0 → underway = true
  data : f.op = 0x1 ∨ f.op = 0x2 → underway = false

/-- The rules of RFC 6455 §5 and §7, those that are not checked among them. -/
structure Rfc (role : Role) (deflate underway : Bool) (f : WireFrame) : Prop extends
    Grammatical role deflate underway f where
  control : f.op = 0x8 ∨ f.op = 0x9 ∨ f.op = 0xA → f.fin = true ∧ f.payload.length ≤ 125
  shortest : f.form = .shortest f.payload.length
  length_lt : f.payload.length < 2 ^ 63
  close : f.op = 0x8 → f.payload.length ≠ 1

lemma WireFrame.known_iff (f : WireFrame) : f.known = true ↔
    f.op = 0x0 ∨ f.op = 0x1 ∨ f.op = 0x2 ∨ f.op = 0x8 ∨ f.op = 0x9 ∨ f.op = 0xA := by
  rw [known, Opcode.fromU8]
  split_ifs <;> simp_all

/-- The rules as the two parts of the checks. -/
lemma grammatical_iff {role : Role} {deflate underway : Bool} {f : WireFrame} :
    Grammatical role deflate underway f ↔
      headerOk role deflate f = true ∧ inOrder underway f = true := by
  have hbegins : f.begins = true ↔ f.op = 0x1 ∨ f.op = 0x2 := by
    simp [WireFrame.begins, Opcode.toU8]
  have hcont : f.continues = true ↔ f.op = 0x0 := by
    simp [WireFrame.continues, Opcode.toU8]
  have hreserved : reservedOk deflate f = true ↔ f.rsv2 = false ∧ f.rsv3 = false ∧
      (f.rsv1 = true → deflate = true ∧ (f.op = 0x1 ∨ f.op = 0x2)) := by
    rw [← hbegins, reservedOk]
    cases f.rsv1 <;> simp [and_assoc]
  have hmask : maskOk role f = true ↔ (f.key.isSome = true ↔ role = .server) := by
    rw [maskOk]
    cases role <;> cases f.key.isSome <;> simp
  have horder : inOrder underway f = true ↔
      (f.op = 0x0 → underway = true) ∧ (f.op = 0x1 ∨ f.op = 0x2 → underway = false) := by
    rw [← hbegins, ← hcont, inOrder]
    cases f.continues <;> cases f.begins <;> simp
  rw [headerOk, Bool.and_eq_true, Bool.and_eq_true, f.known_iff, hreserved, hmask, horder]
  constructor
  · rintro ⟨h1, h2, h3, h4, h5⟩
    exact ⟨⟨⟨h1, h2⟩, h3⟩, h4, h5⟩
  · rintro ⟨⟨⟨h1, h2⟩, h3⟩, h4, h5⟩
    exact ⟨h1, h2, h3, h4, h5⟩

/-! ## wscpp -/

namespace Cpp

open Connection

/-- The failures that concern the content of a message. -/
def contentReasons : List String :=
  ["Invalid UTF-8 in text frame", "permessage-deflate decompression failed"]

/-- Between `c` and `c'` the connection has failed, not on the content of a message. -/
def Refused (c c' : Connection) : Prop :=
  ∃ reason events, reason ∉ contentReasons ∧ c'.events = c.events ++ events ∧
    .onError (.reason reason) ∈ events

lemma headerFailure_notMem {p : Platform} {c : Connection} {reason : String}
    (h : headerFailure p c = some reason) : reason ∉ contentReasons := by
  rw [headerFailure] at h
  split_ifs at h <;> cases h <;> decide

lemma FailedWith.refused_iff {p : Platform} {c c' : Connection} {code : UInt16} {reason : String}
    (h : FailedWith p c c' code reason) : Refused c c' ↔ reason ∉ contentReasons := by
  constructor
  · rintro ⟨reason', events, hreason, heq, hmem⟩
    rw [h.events, List.append_cancel_left_eq] at heq
    rw [← heq] at hmem
    simp only [List.mem_cons, Event.onError.injEq, ErrorText.reason.injEq, reduceCtorEq,
      List.not_mem_nil, or_false] at hmem
    rwa [hmem] at hreason
  · intro hreason
    exact ⟨reason, _, hreason, h.events, by simp⟩

lemma not_refused {c c' : Connection} {events : List Event} (h : c'.events = c.events ++ events)
    (hno : ∀ text, .onError text ∉ events) : ¬Refused c c' := by
  rintro ⟨reason, events', -, heq, hmem⟩
  rw [h, List.append_cancel_left_eq] at heq
  exact hno _ (heq ▸ hmem)

/-- The frame is refused. -/
def Fate.refuses : Fate → Bool
  | failed _ reason => !contentReasons.contains reason
  | _ => false

lemma Meets.refused_iff {p : Platform} {role : Role} {deflate : Bool} {c c' : Connection}
    {rest : List UInt8} {t : Fate} (h : Meets p role deflate c c' rest t) :
    Refused c c' ↔ t.refuses = true := by
  cases t with
  | failed code reason =>
      rw [FailedWith.refused_iff h]
      simp [Fate.refuses]
  | closed =>
      obtain ⟨-, code, reason, hevents⟩ := h
      exact iff_of_false (not_refused hevents (by simp)) (by simp [Fate.refuses])
  | taken next message =>
      refine iff_of_false (not_refused h.2.2 fun text hmem => ?_) (by simp [Fate.refuses])
      simp at hmem

lemma inOrder_of_assemble {m : Option Unfinished} {f : WireFrame} {data : List UInt8}
    {r : Option Unfinished × Option Unfinished} (h : assemble m f data = some r) :
    inOrder m.isSome f = true := by
  by_contra horder
  rw [assemble_eq_none_iff.mpr (Bool.not_eq_true _ ▸ horder)] at h
  cases h

/-- A frame is refused by its fate exactly if it is out of order. -/
lemma refuses_fate (p : Platform) (m : Option Unfinished) (f : WireFrame) (data : List UInt8) :
    (fate p m f data).refuses = !inOrder m.isSome f := by
  rw [fate]
  split
  · rename_i hclose
    rw [beq_iff_eq] at hclose
    simp [Fate.refuses, inOrder, WireFrame.continues, WireFrame.begins, hclose, Opcode.toU8]
  · split
    · rename_i hnone
      rw [assemble_eq_none_iff.mp hnone]
      split_ifs <;> decide
    · rename_i next hsome
      rw [inOrder_of_assemble hsome]
      rfl
    · rename_i next q hsome
      rw [inOrder_of_assemble hsome, messageFate]
      split
      · decide
      · split_ifs <;> first | decide | rfl

/-- **One frame** is refused exactly if it breaks a rule. -/
lemma readOneFrame_refused_iff {p : Platform} (hw : ∀ i, p.write i = true) {role : Role}
    {deflate : Bool} {c : Connection} {m : Option Unfinished} {f : WireFrame} {rest : List UInt8}
    (h : Between p role deflate c m) (hfits : f.payload.length < 2 ^ (p.bits - 1))
    (hin : c.input = f.encode ++ rest) :
    Refused c (readOneFrame p c).1 ↔
      ¬Grammatical role (p.deflate && deflate) m.isSome f := by
  have hfate := readOneFrame_fate hw h hfits hin
  rw [grammatical_iff]
  split_ifs at hfate with hok
  · rw [Meets.refused_iff hfate, refuses_fate]
    simp [hok]
  · obtain ⟨reason, hreason, hfail⟩ := hfate
    simp [FailedWith.refused_iff hfail, headerFailure_notMem hreason, hok]

end Cpp

/-! ## ws-rs -/

namespace Rs

namespace Connection

/-- The failures that concern the content of a message. -/
def contentReasons : List String :=
  ["invalid UTF-8 in text frame", "permessage-deflate decompression failed"]

/-- The result of a turn is a protocol error, not on the content of a message. -/
def Refused (r : Option (Except Error (Option Message))) : Prop :=
  ∃ reason, reason ∉ contentReasons ∧ r = some (.error (.protocol reason))

/-- The reader between two frames, with a message under way or not. -/
structure Between (role : Role) (deflate : Bool) (c : Connection) (underway : Bool)
    (rest : List UInt8) : Prop where
  role_eq : c.role = role
  deflate_eq : c.permessageDeflate = deflate
  frames : c.AtFrame rest
  active : c.fragment.active = underway
  negotiated : c.fragment.active = true → c.fragment.compressed = true → deflate = true

lemma ite_error_eq_ok {b : Bool} {err : Error} {r : Except Error Unit} :
    (if b then .error err else r) = .ok () ↔ b = false ∧ r = .ok () := by
  cases b <;> simp

/-- The rules of `validate_incoming`, for an opcode the parser knows. -/
lemma validateIncoming_iff (role : Role) (deflate : Bool) (key : Key) {f : WireFrame}
    {opcode : Opcode} (hop : Opcode.fromU8 f.op = some opcode) :
    validateIncoming (headerOf f opcode key) role deflate = .ok () ↔
      headerOk role deflate f = true := by
  have hfop : f.op = opcode.toU8 := Opcode.fromU8_eq_some.mp hop
  have hbegins : f.begins = (opcode == .text || opcode == .binary) := by
    rw [WireFrame.begins, hfop]
    cases opcode <;> rfl
  have hcont : f.continues = (opcode == .continuation) := by
    rw [WireFrame.continues, hfop]
    cases opcode <;> rfl
  have hreserved := reservedBits_iff true deflate f.rsv1 f.rsv2 f.rsv3 f.begins f.continues
    not_begins_of_continues
  have hmask : (role == .server && !f.key.isSome) = false ∧
      (role == .client && f.key.isSome) = false ↔ maskOk role f = true := by
    rw [maskOk]
    cases role <;> cases f.key.isSome <;> decide
  have hknown : f.known = true := by rw [WireFrame.known, hop]; rfl
  simp only [Bool.true_and, if_true, hbegins, hcont] at hreserved
  rw [validateIncoming]
  simp only [ite_error_eq_ok]
  simp only [headerOf]
  rw [headerOk, hknown, Bool.true_and, Bool.and_eq_true, reservedOk, hbegins, ← hreserved, ← hmask]
  tauto

lemma validateIncoming_reason {header : FrameHeader} {role : Role} {deflate : Bool} {err : Error}
    (h : validateIncoming header role deflate = .error err) :
    ∃ reason, reason ∉ contentReasons ∧ err = .protocol reason := by
  rw [validateIncoming] at h
  split_ifs at h <;> cases h <;> exact ⟨_, by decide, rfl⟩

lemma not_refused_none : ¬Refused none := by
  rintro ⟨reason, -, heq⟩
  cases heq

lemma inOrder_of_control (underway : Bool) {f : WireFrame} (hcont : f.continues = false)
    (hbegins : f.begins = false) :
    inOrder underway f = true ∧ underwayAfter underway f = underway := by
  simp [inOrder, underwayAfter, hcont, hbegins]

variable {e : Env} (hw : ∀ i, e.write i = .done) {role : Role} {deflate : Bool}
  {c : Connection} {underway : Bool} {rest : List UInt8}

/-- The connection with another message under way. -/
lemma Between.withFragment (h : Between role deflate c underway rest) (frag : FragmentState)
    (hneg : frag.active = true → frag.compressed = true → deflate = true) :
    Between role deflate { c with fragment := frag } frag.active rest where
  role_eq := h.role_eq
  deflate_eq := h.deflate_eq
  frames := ⟨h.frames.header, h.frames.pending, h.frames.noErrors⟩
  active := rfl
  negotiated := hneg

include hw

lemma failProtocol_done {α : Type} (c : Connection) (reason : String) :
    (failProtocol (α := α) e c reason).2 = .error (.protocol reason) ∧
      (failProtocol (α := α) e c reason).1.isOpen = false := by
  rw [failProtocol, close, sendClose_done e (hw _)]
  exact ⟨rfl, rfl⟩

/-- A complete message fails on its content if at all. -/
lemma deliverMessage_content (c : Connection) (op : Opcode) (payload : List UInt8)
    {compressed : Bool} (hneg : compressed = true → c.permessageDeflate = true) :
    ((deliverMessage e c op payload compressed).1 = c ∨
        (deliverMessage e c op payload compressed).1.isOpen = false) ∧
      ∀ reason, (deliverMessage e c op payload compressed).2 = .error (.protocol reason) →
        reason ∈ contentReasons := by
  have hplain : ∀ plain, ((deliverPlain e c op plain).1 = c ∨
        (deliverPlain e c op plain).1.isOpen = false) ∧
      ∀ reason, (deliverPlain e c op plain).2 = .error (.protocol reason) →
        reason ∈ contentReasons := by
    intro plain
    rw [deliverPlain, close, sendClose_done e (hw _)]
    split_ifs
    · refine ⟨.inr rfl, fun reason hreason => ?_⟩
      simp only [Except.error.injEq, Error.protocol.injEq] at hreason
      subst hreason
      decide
    · exact ⟨.inl rfl, by simp⟩
  cases hz : compressed with
  | false => simpa [deliverMessage] using hplain payload
  | true =>
      rw [deliverMessage, if_pos rfl, if_neg (by simp [hneg hz])]
      cases decompressMessage e.zlib payload with
      | none =>
          refine ⟨.inl rfl, fun reason hreason => ?_⟩
          simp only [Except.error.injEq, Error.protocol.injEq] at hreason
          subst hreason
          decide
      | some plain => exact hplain plain

/-- The end of a turn with a complete message. -/
lemma finish_deliverMessage {d : Connection} (h : Between role deflate d false rest) (op : Opcode)
    (payload : List UInt8) {compressed : Bool} (hneg : compressed = true → deflate = true) :
    let r := finish (deliverMessage e d op payload compressed) some
    ¬Refused r.2 ∧ (r.1.isOpen = true → Between role deflate r.1 false rest) := by
  intro r
  have hneg' : compressed = true → d.permessageDeflate = true := by
    rw [h.deflate_eq]
    exact hneg
  obtain ⟨hconn, hresult⟩ := deliverMessage_content hw d op payload hneg'
  constructor
  · rintro ⟨reason, hreason, heq⟩
    have hfin : finish (deliverMessage e d op payload compressed) some =
        (r.1, some (.error (.protocol reason))) := by rw [← heq]
    exact hreason (hresult reason (by rw [eq_of_finish hfin]))
  · intro hopen
    rcases hconn with hsame | hclosed
    · exact hsame.symm ▸ h
    · rw [show r.1.isOpen = false from hclosed] at hopen
      simp at hopen

lemma finish_failProtocol (c : Connection) {reason : String} (hreason : reason ∉ contentReasons) :
    let r := finish (failProtocol (α := Message) e c reason) some
    Refused r.2 ∧ r.1.isOpen = false := by
  obtain ⟨hresult, hclosed⟩ := failProtocol_done (α := Message) hw c reason
  refine ⟨⟨reason, hreason, ?_⟩, hclosed⟩
  rw [finish, hresult]
  rfl

/-- **A data frame** that begins a message. -/
lemma handleData_step {f : WireFrame} {frame : Frame} (op : Opcode)
    (h : Between role deflate c underway rest) (hbegins : f.begins = true)
    (hfin : frame.header.fin = f.fin) (hrsv : frame.header.rsv1 = f.rsv1)
    (hneg : f.rsv1 = true → deflate = true) :
    (Refused (handleData e c frame op).2 ↔ inOrder underway f = false) ∧
      ((handleData e c frame op).1.isOpen = true →
        Between role deflate (handleData e c frame op).1 (underwayAfter underway f) rest) := by
  have hcont : f.continues = false := by
    by_contra hc
    simp [not_begins_of_continues (Bool.not_eq_false _ ▸ hc)] at hbegins
  have hafter : underwayAfter underway f = !f.fin := by simp [underwayAfter, hbegins]
  have horder : inOrder underway f = !underway := by simp [inOrder, hcont, hbegins]
  rw [handleData, h.active, hfin, hrsv, hafter, horder]
  cases hunder : underway with
  | true =>
      rw [if_pos rfl]
      obtain ⟨hrefused, hclosed⟩ := finish_failProtocol hw c
        (by decide : "New data frame before fragmented message completed" ∉ contentReasons)
      exact ⟨iff_of_true hrefused rfl, fun hopen => by simp [hclosed] at hopen⟩
  | false =>
      rw [if_neg (by simp)]
      cases hf : f.fin with
      | false =>
          exact ⟨iff_of_false not_refused_none (by simp),
            fun _ => h.withFragment ⟨true, frame.payload, op, f.rsv1⟩ fun _ => hneg⟩
      | true =>
          obtain ⟨hrefused, hopen⟩ := finish_deliverMessage hw (hunder ▸ h) op frame.payload hneg
          exact ⟨iff_of_false hrefused (by simp), hopen⟩

/-- **A continuation frame.** -/
lemma handleContinuation_step {f : WireFrame} (key : Key)
    (h : Between role deflate c underway rest) (hcont : f.continues = true) :
    let r := handleFrame e c ⟨headerOf f .continuation key, f.payload⟩
    (Refused r.2 ↔ inOrder underway f = false) ∧
      (r.1.isOpen = true → Between role deflate r.1 (underwayAfter underway f) rest) := by
  have horder : inOrder underway f = underway := by
    simp [inOrder, hcont, not_begins_of_continues hcont]
  have hafter : underwayAfter underway f = !f.fin := by simp [underwayAfter, hcont]
  intro r
  have hr : r = if !c.fragment.active then
        finish (failProtocol (α := Message) e c "Unexpected continuation frame") some
      else if f.fin then
        finish (deliverMessage e { c with fragment := .reset } c.fragment.opcode
          (c.fragment.buffer ++ f.payload) c.fragment.compressed) some
      else ({ c with fragment := { c.fragment with buffer := c.fragment.buffer ++ f.payload } },
        none) := rfl
  rw [horder, hafter, hr]
  cases hactive : c.fragment.active with
  | false =>
      -- no message is under way: `fail_protocol` closes, so there is nothing to show of later
      -- frames
      obtain ⟨hrefused, hclosed⟩ := finish_failProtocol hw c
        (by decide : "Unexpected continuation frame" ∉ contentReasons)
      rw [if_pos (by rfl)]
      refine ⟨iff_of_true hrefused (h.active ▸ hactive), fun hopen => ?_⟩
      simp [hclosed] at hopen
  | true =>
      have hunder : underway = true := h.active ▸ hactive
      rw [if_neg (by simp)]
      cases hf : f.fin with
      | false =>
          -- the message goes on, and nothing is delivered
          have hgrown := h.withFragment
            { c.fragment with buffer := c.fragment.buffer ++ f.payload } h.negotiated
          exact ⟨iff_of_false not_refused_none (by simp [hunder]), fun _ =>
            ⟨hgrown.role_eq, hgrown.deflate_eq, hgrown.frames, hactive, hgrown.negotiated⟩⟩
      | true =>
          -- the last frame: whatever is wrong with the content is no matter of the frames
          have hreset := h.withFragment .reset (by simp [FragmentState.reset])
          obtain ⟨hrefused, hopen⟩ := finish_deliverMessage hw hreset c.fragment.opcode
            (c.fragment.buffer ++ f.payload) (h.negotiated hactive)
          exact ⟨iff_of_false hrefused (by simp [hunder]), hopen⟩

/-- **A frame that passed `validate_incoming`.** -/
lemma handleFrame_step {f : WireFrame} {opcode : Opcode} (key : Key)
    (h : Between role deflate c underway rest) (hop : Opcode.fromU8 f.op = some opcode)
    (hok : headerOk role deflate f = true) :
    let r := handleFrame e c ⟨headerOf f opcode key, f.payload⟩
    (Refused r.2 ↔ inOrder underway f = false) ∧
      (r.1.isOpen = true → Between role deflate r.1 (underwayAfter underway f) rest) := by
  have hfop : f.op = opcode.toU8 := Opcode.fromU8_eq_some.mp hop
  -- RSV1 has passed the header check, so the extension is negotiated
  have hneg : f.rsv1 = true → deflate = true := by
    intro hset
    simp only [headerOk, reservedOk, hset, Bool.and_eq_true, Bool.not_true, Bool.false_or] at hok
    exact hok.1.2.2.1
  intro r
  cases opcode with
  | close =>
      obtain ⟨horder, -⟩ := inOrder_of_control underway
        (by simp [WireFrame.continues, hfop, Opcode.toU8] : f.continues = false)
        (by simp [WireFrame.begins, hfop, Opcode.toU8])
      have hr : r = finish (handleCloseFrame e c f.payload) fun _ => none := rfl
      -- the echo closes the connection
      simp only [handleCloseFrame, sendClose_done e (hw _)] at hr
      rw [hr, horder]
      refine ⟨iff_of_false ?_ (by simp), fun hopen => by simp [finish] at hopen⟩
      rintro ⟨reason, -, heq⟩
      simp [finish, Except.map] at heq
  | ping =>
      obtain ⟨horder, hafter⟩ := inOrder_of_control underway
        (by simp [WireFrame.continues, hfop, Opcode.toU8] : f.continues = false)
        (by simp [WireFrame.begins, hfop, Opcode.toU8])
      have hr : r = (c.sent (outFrame e c .pong f.payload true false), none) := by
        simp only [r, handleFrame, headerOf, sendPong, sendFrame_done e (hw _)]
      rw [hr, horder, hafter]
      refine ⟨iff_of_false not_refused_none (by simp), fun _ => ?_⟩
      exact ⟨h.role_eq, h.deflate_eq, ⟨h.frames.header, h.frames.pending, h.frames.noErrors⟩,
        h.active, h.negotiated⟩
  | pong =>
      obtain ⟨horder, hafter⟩ := inOrder_of_control underway
        (by simp [WireFrame.continues, hfop, Opcode.toU8] : f.continues = false)
        (by simp [WireFrame.begins, hfop, Opcode.toU8])
      have hr : r = (c, none) := rfl
      rw [hr, horder, hafter]
      exact ⟨iff_of_false not_refused_none (by simp), fun _ => h⟩
  | text =>
      exact handleData_step hw .text h (by simp [WireFrame.begins, hfop]) rfl rfl hneg
  | binary =>
      exact handleData_step hw .binary h (by simp [WireFrame.begins, hfop]) rfl rfl hneg
  | continuation => exact handleContinuation_step hw key h (by simp [WireFrame.continues, hfop])

omit hw in
/-- A reserved opcode stops the parser. -/
lemma readFrame_of_reserved {f : WireFrame} (hopen : c.isOpen = true)
    (hat : c.AtFrame (f.encode ++ rest)) (hop : Opcode.fromU8 f.op = none) :
    ∃ d, readFrame e c = failProtocol e d "invalid frame" := by
  obtain ⟨q, tl, hparse⟩ := Parser.outcome_encode_reserved e.bits hat.header hop rest
  rw [← hat.pending] at hparse
  have hends := readFrame_cases e hopen
  generalize readFrame e c = r at hends
  cases hends with
  | frame hp hrest hsuffix => simp [parseAll, hparse] at hp
  | invalid hp hrest hsuffix => exact ⟨_, rfl⟩
  | eof hp => simp [parseAll, hparse] at hp
  | ioError hp hsuffix =>
      have hle := readErrors_le_of_suffix hsuffix
      rw [hat.noErrors, readErrors] at hle
      omega

/-- **One turn** refuses its frame exactly if it breaks a rule. -/
lemma turn_step {f : WireFrame} (hopen : c.isOpen = true)
    (h : Between role deflate c underway (f.encode ++ rest)) (hslice : e.Slice f.payload)
    (hne : f.payload ≠ [] ∨ rest ≠ []) :
    (Refused (turn e c).2 ↔ ¬Grammatical role deflate underway f) ∧
      ((turn e c).1.isOpen = true → Between role deflate (turn e c).1
        (if headerOk role deflate f then underwayAfter underway f else underway) rest) := by
  rw [grammatical_iff]
  cases hop : Opcode.fromU8 f.op with
  | none =>
      -- the parser itself refuses a reserved opcode
      have hbad : headerOk role deflate f = false := by simp [headerOk, WireFrame.known, hop]
      obtain ⟨d, hread⟩ := readFrame_of_reserved (e := e) hopen h.frames hop
      obtain ⟨hresult, hclosed⟩ := failProtocol_done (α := Option Frame) hw d "invalid frame"
      have hturn : turn e c = ((failProtocol (α := Option Frame) e d "invalid frame").1,
          some (.error (.protocol "invalid frame"))) := by
        rw [turn, hread]
        rfl
      rw [hturn]
      refine ⟨iff_of_true ⟨_, by decide, rfl⟩ (by simp [hbad]), fun hstill => ?_⟩
      simp [hclosed] at hstill
  | some opcode =>
      obtain ⟨c₁, hat, ⟨q, rs, input, rfl⟩, hread⟩ := readFrame_of_frame e hopen h.frames hop hslice
        hne
      have h₁ : Between role deflate (c.withRead q rs input) underway rest :=
        ⟨h.role_eq, h.deflate_eq, hat, h.active, h.negotiated⟩
      have hiff := validateIncoming_iff role deflate c.parser.header.maskingKey hop
      rw [h.role_eq, h.deflate_eq, verdict] at hread
      cases hvalid : validateIncoming (c.frameOf f opcode).header role deflate with
      | error err =>
          have hbad : headerOk role deflate f = false := by
            rw [← Bool.not_eq_true, ← hiff]
            intro hok
            rw [frameOf, hok] at hvalid
            simp at hvalid
          -- `validate_incoming` refuses and leaves the connection open, with the frame taken
          obtain ⟨reason, hreason, rfl⟩ := validateIncoming_reason hvalid
          rw [turn, hread, hvalid]
          refine ⟨iff_of_true ⟨reason, hreason, rfl⟩ (by simp [hbad]), fun _ => ?_⟩
          simpa [hbad] using h₁
      | ok u =>
          have hok : headerOk role deflate f = true := hiff.mp hvalid
          rw [turn, hread, hvalid, hok]
          obtain ⟨hrefused, hnext⟩ := handleFrame_step hw c.parser.header.maskingKey h₁ hop hok
          exact ⟨hrefused.trans (by simp), hnext⟩

variable (e) in
omit hw in
/-- The connection after so many turns. -/
def turns : ℕ → Connection → Connection
  | 0, c => c
  | n + 1, c => turns n (turn e c).1

omit hw in
lemma turns_of_closed (h : c.isOpen = false) (n : ℕ) : turns e n c = c := by
  induction n with
  | zero => rfl
  | succ n ih =>
      have hturn : (turn e c).1 = c := by rw [turn, readFrame_of_closed e h]
      rw [turns, hturn, ih]

/-- **A run that stays open** has a message under way if its frames say so. -/
lemma between_of_turns (fs : List WireFrame) (hslice : ∀ f ∈ fs, e.Slice f.payload)
    (hrest : rest ≠ [])
    (hbetween : Between role deflate c underway (fs.flatMap WireFrame.encode ++ rest))
    (hopen : (turns e fs.length c).isOpen = true) :
    Between role deflate (turns e fs.length c)
      ((fs.filter (headerOk role deflate)).foldl underwayAfter underway) rest := by
  induction fs generalizing c underway with
  | nil => exact hbetween
  | cons f fs ih =>
      rw [List.flatMap_cons, List.append_assoc] at hbetween
      rw [List.forall_mem_cons] at hslice
      rw [List.length_cons, turns] at hopen ⊢
      have hnow : c.isOpen = true := by
        by_contra hclosed
        rw [Bool.not_eq_true] at hclosed
        have hturn : (turn e c).1 = c := by rw [turn, readFrame_of_closed e hclosed]
        rw [hturn, turns_of_closed hclosed, hclosed] at hopen
        simp at hopen
      have hthen : (turn e c).1.isOpen = true := by
        by_contra hclosed
        rw [Bool.not_eq_true] at hclosed
        rw [turns_of_closed hclosed, hclosed] at hopen
        simp at hopen
      have hstep := (turn_step hw hnow hbetween hslice.1 (.inr (by simp [hrest]))).2 hthen
      have hrun := ih hslice.2 hstep hopen
      cases hok : headerOk role deflate f with
      | true =>
          rw [hok, if_pos rfl] at hrun
          rwa [List.filter_cons_of_pos hok]
      | false =>
          rw [hok, if_neg (by simp)] at hrun
          rwa [List.filter_cons_of_neg (by simp [hok])]

end Connection

/-- A frame that arrives, valid or not; its payload fits a slice. -/
structure Inbound (e : Env) extends WireFrame where
  slice : e.Slice payload

end Rs

/-! ## Both -/

/-- **The frames both connections accept.**  From every open state that a sequence of frames leads
to, the next frame is processed without being refused exactly if it keeps the rules, given the role,
the extension and whether a message is under way.  ws-rs judges a frame without payload once a byte
follows it. -/
theorem accepts_iff_grammatical (p : Cpp.Platform) (e : Rs.Env) (hp : ∀ i, p.write i = true)
    (he : ∀ i, e.write i = .done) (role : Role) (deflate : Bool) :
    (∀ (history : List (Cpp.Inbound p)) (f : Cpp.Inbound p) (rest : List UInt8),
      let c := Cpp.reached p role deflate history (f.encode ++ rest)
      c.isOpen = true →
        (¬Cpp.Refused c (c.readOneFrame p).1 ↔
          Grammatical role (p.deflate && deflate)
            (underway role (p.deflate && deflate) (history.map Cpp.Inbound.toWireFrame))
            f.toWireFrame)) ∧
    (∀ (history : List (Rs.Inbound e)) (f : Rs.Inbound e) (rest : List UInt8)
        (input : List Rs.ReadEvent),
      let frames := history.map Rs.Inbound.toWireFrame
      let c := Rs.Connection.turns e history.length (Rs.Connection.new input role deflate)
      Rs.readErrors input = 0 →
        Rs.inputBytes input = frames.flatMap WireFrame.encode ++ (f.encode ++ rest) →
        f.payload ≠ [] ∨ rest ≠ [] → c.isOpen = true →
          (¬Rs.Connection.Refused (c.turn e).2 ↔
            Grammatical role deflate (underway role deflate frames) f.toWireFrame)) := by
  constructor
  · intro history f rest c hopen
    obtain ⟨m, hbetween, hinput, hflag, -⟩ := Cpp.between_reached hp hopen
    rw [Cpp.readOneFrame_refused_iff hp hbetween f.fits hinput, hflag, not_not]
  · intro history f rest input frames c herrors hbytes hne hopen
    -- the frames of the history and this one, with the connection new
    have hstart : Rs.Connection.Between role deflate (Rs.Connection.new input role deflate) false
        (frames.flatMap WireFrame.encode ++ (f.encode ++ rest)) :=
      ⟨rfl, rfl, ⟨rfl, hbytes, herrors⟩, rfl, by simp [Rs.Connection.new, Rs.FragmentState.reset]⟩
    have hslice : ∀ g ∈ frames, e.Slice g.payload := by
      simp only [frames, List.mem_map]
      rintro g ⟨g, -, rfl⟩
      exact g.slice
    have hlen : frames.length = history.length := List.length_map _
    have hrun := Rs.Connection.between_of_turns he frames hslice
      (by simp [f.encode_ne_nil]) hstart (hlen ▸ hopen)
    rw [hlen] at hrun
    rw [(Rs.Connection.turn_step he hopen hrun f.slice hne).1, not_not]
    rfl

/-- The first half of `Hi`, for a server. -/
def halfText : WireFrame := .emitted false false .text (some ⟨1, 2, 3, 4⟩) [0x48] (by decide)

/-- The second half. -/
def otherHalf : WireFrame :=
  .emitted true false .continuation (some ⟨5, 6, 7, 8⟩) [0x69] (by decide)

/-- Both connections take the second half after the first. -/
theorem accepts_other_half :
    let c := Cpp.reached Cpp.plainPlatform .server false [⟨halfText, by decide +kernel⟩]
      (otherHalf.encode ++ [])
    let d := Rs.Connection.turns Rs.Connection.plainEnv 1
      (Rs.Connection.new [.data ⟨halfText.encode ++ otherHalf.encode, by decide, by decide⟩]
        .server false)
    (c.isOpen = true ∧ ¬Cpp.Refused c (c.readOneFrame Cpp.plainPlatform).1) ∧
      (d.isOpen = true ∧ ¬Rs.Connection.Refused (d.turn Rs.Connection.plainEnv).2) := by
  intro c d
  have hgrammatical : Grammatical .server false true otherHalf :=
    ⟨by decide, by decide, by decide, by decide, by decide⟩
  obtain ⟨hcpp, hrs⟩ := accepts_iff_grammatical Cpp.plainPlatform Rs.Connection.plainEnv
    (fun _ => rfl) (fun _ => rfl) .server false
  have hc : c.isOpen = true := by decide +kernel
  have hd : d.isOpen = true := by decide +kernel
  exact ⟨⟨hc, (hcpp [⟨halfText, by decide +kernel⟩] ⟨otherHalf, by decide +kernel⟩ [] hc).mpr
      hgrammatical⟩,
    hd, (hrs [⟨halfText, by decide +kernel⟩] ⟨otherHalf, by decide +kernel⟩ [] _ rfl (by decide)
      (.inl (by decide)) hd).mpr hgrammatical⟩

/-- A ping to a server without `FIN`. -/
def unfinishedPing : WireFrame :=
  .emitted false false .ping (some ⟨1, 2, 3, 4⟩) [0x07] (by decide)

/-- RFC 6455 forbids it, and both connections answer it with a pong. -/
theorem unfinishedPing_accepted :
    let c := Cpp.reached Cpp.plainPlatform .server false [] unfinishedPing.encode
    let d := Rs.Connection.new [.data ⟨unfinishedPing.encode, by decide, by decide⟩] .server false
    ¬Rfc .server false false unfinishedPing ∧
      (¬Cpp.Refused c (c.readOneFrame Cpp.plainPlatform).1 ∧
        (c.readOneFrame Cpp.plainPlatform).1.wire = [[0x8a, 0x01, 0x07]]) ∧
      ¬Rs.Connection.Refused (d.turn Rs.Connection.plainEnv).2 ∧
        (d.turn Rs.Connection.plainEnv).1.written = [[0x8a, 0x01, 0x07]] := by
  intro c d
  have hevents : (c.readOneFrame Cpp.plainPlatform).1.events = c.events ++ [] := by decide +kernel
  have hresult : (d.turn Rs.Connection.plainEnv).2 = none := by decide +kernel
  refine ⟨fun h => ?_, ⟨Cpp.not_refused hevents (by simp), by decide +kernel⟩, ?_,
    by decide +kernel⟩
  · have hfin := (h.control (.inr (.inl rfl))).1
    simp [unfinishedPing, WireFrame.emitted] at hfin
  · rintro ⟨reason, -, heq⟩
    simp [hresult] at heq

end Wscpp
