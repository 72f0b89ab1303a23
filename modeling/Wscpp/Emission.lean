import Wscpp.Written
import Wscpp.Conformance

/-!
# What an endpoint emits

Neither implementation emits a frame that its own counterpart rejects.  The mask, the `RSV1` bit and
the status code of a CLOSE frame are decided at every place that writes: `send_data_frame`,
`send_ping`, `close`, the pong, the echo of a CLOSE and the failures.  `Acceptable` is what the
peer's check of the header and `is_valid_close_code` ask for; what an endpoint writes by itself is
acceptable (`admits_acceptable`), so that every function of either connection keeps the frames on
the wire so (`Wscpp.Written`), and every session (`emits_acceptable`).

Lengths need care at two places.  A compressed payload is bounded by the buffer it is compressed
into, and a pong carries what `payload_buffer_` holds, a vector, or what the parser of ws-rs has
accepted, which refuses a length from `2 ^ 63` on.
-/

namespace Wscpp

open Utf8 Incremental

/-! ## Acceptable frames -/

/-- A CLOSE frame carries a valid status code. -/
def CarriesCode (f : WireFrame) : Prop :=
  f.op = Opcode.close.toU8 →
    ∃ b0 b1 reason, f.payload = b0 :: b1 :: reason ∧ isValidCloseCode (closeCodeOf b0 b1) = true

/-- The byte string of a frame that a receiver of the role takes. -/
def Acceptable (role : Role) (deflate : Bool) (bs : List UInt8) : Prop :=
  ∃ f : WireFrame, bs = f.encode ∧ headerOk role deflate f = true ∧ CarriesCode f

/-- The header of an emitted frame passes the check of the peer. -/
lemma headerOk_emitted {role : Role} {deflate fin rsv1 : Bool} {op : Opcode} {key : Key}
    {payload : List UInt8} (hlen : payload.length < 2 ^ 64)
    (hrsv : rsv1 = true → deflate = true ∧ (op = .text ∨ op = .binary)) :
    headerOk role.peer deflate
      (.emitted fin rsv1 op (keyIf (role == .client) key) payload hlen) = true := by
  have hmask : maskOk role.peer
      (.emitted fin rsv1 op (keyIf (role == .client) key) payload hlen) = true := by
    cases role <;> rfl
  have hknown : (WireFrame.emitted fin rsv1 op (keyIf (role == .client) key) payload hlen).known =
      true := by
    cases op <;> rfl
  have hreserved : reservedOk deflate
      (.emitted fin rsv1 op (keyIf (role == .client) key) payload hlen) = true := by
    cases rsv1 with
    | false => rfl
    | true =>
        obtain ⟨rfl, rfl | rfl⟩ := hrsv rfl
        · rfl
        · rfl
  rw [headerOk, hknown, hreserved, hmask]
  rfl

lemma acceptable_emitted {role : Role} {deflate fin rsv1 : Bool} {op : Opcode} {key : Key}
    {payload : List UInt8} (hop : op ≠ .close) (hlen : payload.length < 2 ^ 64)
    (hrsv : rsv1 = true → deflate = true ∧ (op = .text ∨ op = .binary)) :
    Acceptable role.peer deflate (encodeParts fin rsv1 false false op.toU8
      (.shortest payload.length) (keyIf (role == .client) key) payload) :=
  ⟨.emitted fin rsv1 op _ payload hlen, rfl, headerOk_emitted hlen hrsv,
    fun h => absurd (Opcode.toU8_injective h) hop⟩

/-- A CLOSE frame with a valid code. -/
lemma acceptable_close {role : Role} {deflate : Bool} {code : UInt16} {key : Key}
    {reason : List UInt8} (hcode : isValidCloseCode code = true) (hlen : reason.length < 2 ^ 63) :
    Acceptable role.peer deflate (encodeParts true false false false Opcode.close.toU8
      (.shortest (closeCodeBytes code ++ reason).length) (keyIf (role == .client) key)
      (closeCodeBytes code ++ reason)) := by
  have hlt : (closeCodeBytes code ++ reason).length < 2 ^ 64 := by
    simp only [closeCodeBytes, List.length_append, List.length_cons, List.length_nil]
    omega
  refine ⟨.emitted true false .close _ _ hlt, rfl, headerOk_emitted hlt (by simp), fun _ => ?_⟩
  exact ⟨_, _, reason, rfl, by rwa [closeCodeOf_closeCodeBytes]⟩

lemma admits_acceptable {role : Role} {deflate : Bool} :
    Admits role (2 ^ 63 - 1) (2 ^ 63 - 1) (Acceptable role.peer deflate) where
  room := by decide
  pong := fun key payload hlen => acceptable_emitted (by simp) (by omega) (by simp)
  close := fun code key text hcode hlen => acceptable_close hcode (by omega)

/-! ## wscpp -/

namespace Cpp

namespace Connection

/-- The frames written so far are acceptable to the peer. -/
structure Sound (p : Platform) (role : Role) (deflate : Bool) (c : Connection) : Prop where
  role_eq : c.role = role
  deflate_eq : c.permessageDeflate = deflate
  wire : ∀ bs ∈ c.wire, Acceptable role.peer (p.deflate && deflate) bs

variable {p : Platform} {role : Role} {deflate : Bool} {c c' : Connection}

lemma Sound.of_wrote (h : c.Sound p role deflate)
    (hwrote : Wrote (Acceptable role.peer (p.deflate && deflate)) c c') :
    c'.Sound p role deflate :=
  ⟨hwrote.role_eq.trans h.role_eq, hwrote.deflate_eq.trans h.deflate_eq,
    hwrote.forall_wire h.wire⟩

lemma Sound.admits (h : c.Sound p role deflate) :
    Admits c.role (2 ^ 63 - 1) (2 ^ 63 - 1) (Acceptable role.peer (p.deflate && deflate)) :=
  h.role_eq ▸ admits_acceptable

/-- A compressed payload fits the buffer it was compressed into. -/
lemma compressed_facts {op : Opcode} {data payload : List UInt8} {fin rsv1 : Bool}
    (hlen : data.length < 2 ^ 63)
    (h : Job.compressed ⟨p, role, deflate⟩ op data fin = some (payload, rsv1)) :
    payload.length < 2 ^ 64 ∧
      (rsv1 = true → (p.deflate && deflate) = true ∧ (op = .text ∨ op = .binary)) := by
  rw [Job.compressed] at h
  split_ifs at h with hc
  · simp only [Bool.and_eq_true, Bool.or_eq_true, beq_iff_eq] at hc
    obtain ⟨z, hz, heq⟩ := Option.map_eq_some_iff.mp h
    obtain ⟨rfl, rfl⟩ := Prod.mk.inj heq
    refine ⟨?_, fun _ => ⟨by simp [hc.1.1], hc.2⟩⟩
    rw [compressMessage] at hz
    split_ifs at hz with hnil
    · obtain rfl := Option.some.inj hz
      decide
    · dsimp only at hz
      split_ifs at hz
      obtain rfl := Option.some.inj hz
      apply (List.length_take_le _ _).trans_lt
      omega
  · obtain ⟨rfl, rfl⟩ := Prod.mk.inj (Option.some.inj h)
    exact ⟨by omega, by simp⟩

lemma Sound.sendDataFrame (h : c.Sound p role deflate) {op : Opcode} (hop : op ≠ .close)
    {data : List UInt8} (hlen : data.length < 2 ^ 63) (fin : Bool) :
    (sendDataFrame p c op data fin).1.Sound p role deflate := by
  refine h.of_wrote (wrote_sendDataFrame fun payload rsv1 key hcompressed => ?_)
  rw [h.role_eq, h.deflate_eq] at hcompressed
  obtain ⟨hpayload, hrsv⟩ := compressed_facts hlen hcompressed
  rw [h.role_eq]
  exact acceptable_emitted hop hpayload hrsv

lemma Sound.sendPing (h : c.Sound p role deflate) {data : List UInt8}
    (hlen : data.length < 2 ^ 63) : (sendPing p c data).1.Sound p role deflate := by
  refine h.of_wrote (wrote_sendPing fun key => ?_)
  rw [h.role_eq]
  exact acceptable_emitted (by simp) (by omega) (by simp)

/-- **One move** keeps the frames acceptable. -/
lemma Sound.move (h : c.Sound p role deflate) (hbuffer : c.payloadBuffer.length < 2 ^ 63)
    {move : Move} (hlen : move.data.length < 2 ^ 63) : (move.run p c).Sound p role deflate := by
  cases move with
  | sendText text fin => exact h.sendDataFrame (by simp) hlen fin
  | sendBinary data fin => exact h.sendDataFrame (by simp) hlen fin
  | sendContinuation data fin => exact h.sendDataFrame (by simp) hlen fin
  | sendPing data => exact h.sendPing hlen
  | close code reason => exact h.of_wrote (wrote_close h.admits code (Nat.le_sub_one_of_lt hlen))
  | arrive bytes => exact h.of_wrote (.of_eq rfl rfl rfl)
  | read =>
      rw [Move.run, readTurn]
      split
      · -- a pong carries the payload buffer, which is a vector
        refine h.of_wrote (wrote_readOneFrame h.admits fun d hhanded _ => ?_)
        exact Nat.le_sub_one_of_lt (handed_buffer_lt hbuffer hhanded)
      · exact h

end Connection

/-- A step of a session: a move with fewer than `2 ^ 63` bytes passed.  `payload_buffer_` has fewer
as well, as every `std::vector` of bytes. -/
def Moved (p : Platform) (c c' : Connection) : Prop :=
  c.payloadBuffer.length < 2 ^ 63 ∧ ∃ move : Move, move.data.length < 2 ^ 63 ∧ c' = move.run p c

/-- **Every session** keeps the frames acceptable. -/
lemma sound_of_moved {p : Platform} {role : Role} {deflate : Bool} {input : List UInt8}
    {c : Connection} (hrun : Relation.ReflTransGen (Moved p) (.new role deflate input) c) :
    c.Sound p role deflate := by
  induction hrun with
  | refl => exact ⟨rfl, rfl, by simp [Connection.new]⟩
  | tail _ hstep ih =>
      obtain ⟨hbuffer, move, hlen, rfl⟩ := hstep
      exact ih.move hbuffer hlen

end Cpp

/-! ## ws-rs -/

namespace Rs

/-- What the parser holds of a payload, and what is to come, is below the bound it checks. -/
def Parser.Bounded (q : Parser) : Prop :=
  match q.state with
  | .header => True
  | .payloadLengthExt => True
  | .maskingKey => q.buffer = [] ∧ q.header.payloadLen < 2 ^ 63
  | .payload => q.buffer.length + q.payloadRemaining < 2 ^ 63

lemma Parser.bounded_afterLength {q : Parser} (hstate : q.state = afterLength q.header.mask)
    (hbuffer : q.buffer = []) (hrem : q.payloadRemaining = q.header.payloadLen)
    (hlt : q.header.payloadLen < 2 ^ 63) : q.Bounded := by
  rw [Bounded, hstate]
  cases q.header.mask with
  | true => exact ⟨hbuffer, hlt⟩
  | false =>
      show q.buffer.length + q.payloadRemaining < 2 ^ 63
      rw [hbuffer, hrem]
      simpa using hlt

lemma Parser.bounded_parseHeader (q : Parser) (hstate : q.state = .header) (data : List UInt8) :
    (parseHeader q data).1.Bounded ∧ (parseHeader q data).2.1 ≠ some .complete := by
  have hsame : ∀ header, Bounded { q with header := header } := fun header => by
    rw [Bounded, hstate]
    trivial
  match data with
  | [] => exact ⟨hsame q.header, by simp [parseHeader]⟩
  | [_] => exact ⟨hsame q.header, by simp [parseHeader]⟩
  | first :: second :: _ =>
      rw [parseHeader]
      dsimp only
      split
      · exact ⟨hsame _, by simp⟩
      · split
        · rename_i hle
          refine ⟨bounded_afterLength rfl rfl rfl ?_, by simp⟩
          dsimp only at hle ⊢
          omega
        · exact ⟨trivial, by simp⟩

lemma Parser.bounded_parsePayloadLength (q : Parser) (hstate : q.state = .payloadLengthExt)
    (data : List UInt8) : (parsePayloadLength q data).1.Bounded ∧
      (parsePayloadLength q data).2.1 ≠ some .complete := by
  have hsame : ∀ header, Bounded { q with header := header } := fun header => by
    rw [Bounded, hstate]
    trivial
  have hset : ∀ n k, (setPayloadLength q n k).1.Bounded ∧
      (setPayloadLength q n k).2.1 ≠ some .complete := by
    intro n k
    rw [setPayloadLength]
    dsimp only
    split
    · exact ⟨hsame _, by simp⟩
    · rename_i hle
      refine ⟨bounded_afterLength rfl rfl rfl ?_, by simp⟩
      dsimp only at hle ⊢
      omega
  rw [parsePayloadLength]
  split_ifs
  · exact ⟨hsame q.header, by simp⟩
  · exact hset _ _
  · exact ⟨hsame q.header, by simp⟩
  · exact hset _ _

lemma Parser.bounded_parseMaskingKey {q : Parser} (h : q.Bounded) (hstate : q.state = .maskingKey)
    (data : List UInt8) : (parseMaskingKey q data).1.Bounded ∧
      (parseMaskingKey q data).2.1 ≠ some .complete := by
  have hq := h
  rw [Bounded, hstate] at hq
  obtain ⟨hbuffer, hlt⟩ := hq
  match data with
  | [] => exact ⟨h, by simp [parseMaskingKey]⟩
  | [_] => exact ⟨h, by simp [parseMaskingKey]⟩
  | [_, _] => exact ⟨h, by simp [parseMaskingKey]⟩
  | [_, _, _] => exact ⟨h, by simp [parseMaskingKey]⟩
  | k0 :: k1 :: k2 :: k3 :: _ =>
      refine ⟨?_, by simp [parseMaskingKey]⟩
      show q.buffer.length + q.header.payloadLen < 2 ^ 63
      rw [hbuffer]
      simpa using hlt

lemma Parser.bounded_parsePayload {bits : ℕ} {q : Parser} (h : q.Bounded)
    (hstate : q.state = .payload) (data : List UInt8) :
    (parsePayload bits q data).1.Bounded ∧ (parsePayload bits q data).1.buffer.length < 2 ^ 63 := by
  have hlt : q.buffer.length + q.payloadRemaining < 2 ^ 63 := by
    rwa [Bounded, hstate] at h
  rw [parsePayload]
  split
  · refine ⟨trivial, ?_⟩
    show q.buffer.length < 2 ^ 63
    omega
  · dsimp only
    generalize htake : min (q.payloadRemaining % 2 ^ bits) data.length = n
    have hmod : q.payloadRemaining % 2 ^ bits ≤ q.payloadRemaining := Nat.mod_le _ _
    have hlen : (q.buffer ++ unmaskPiece q.header q.buffer.length (data.take n)).length =
        q.buffer.length + n := by
      rw [List.length_append, length_unmaskPiece, List.length_take_of_le (by omega)]
    split
    · refine ⟨trivial, ?_⟩
      show (q.buffer ++ unmaskPiece q.header q.buffer.length (data.take n)).length < 2 ^ 63
      omega
    · refine ⟨?_, ?_⟩
      · rw [Bounded]
        simp only [hstate]
        omega
      · show (q.buffer ++ unmaskPiece q.header q.buffer.length (data.take n)).length < 2 ^ 63
        omega

/-- A completed frame is taken out of the buffer. -/
lemma Parser.Bounded.takeFrame {q : Parser} (h : q.Bounded) : q.takeFrame.2.Bounded := by
  rw [Bounded] at h
  show Bounded { q with buffer := [] }
  rw [Bounded]
  cases hstate : q.state with
  | header => trivial
  | payloadLengthExt => trivial
  | maskingKey =>
      rw [hstate] at h
      exact ⟨rfl, h.2⟩
  | payload =>
      rw [hstate] at h
      show 0 + q.payloadRemaining < 2 ^ 63
      dsimp only at h
      omega

/-- **One turn of the parser** keeps the bound, and a completed payload is below it. -/
lemma Parser.bounded_sub (bits : ℕ) {q : Parser} (h : q.Bounded) (data : List UInt8) :
    (sub bits q data).1.Bounded ∧
      ((sub bits q data).2.1 = some .complete → (sub bits q data).1.buffer.length < 2 ^ 63) := by
  rw [sub]
  cases hstate : q.state with
  | header =>
      obtain ⟨hq, hne⟩ := bounded_parseHeader q hstate data
      exact ⟨hq, fun hc => absurd hc hne⟩
  | payloadLengthExt =>
      obtain ⟨hq, hne⟩ := bounded_parsePayloadLength q hstate data
      exact ⟨hq, fun hc => absurd hc hne⟩
  | maskingKey =>
      obtain ⟨hq, hne⟩ := bounded_parseMaskingKey h hstate data
      exact ⟨hq, fun hc => absurd hc hne⟩
  | payload =>
      obtain ⟨hq, hlt⟩ := bounded_parsePayload h hstate data
      exact ⟨hq, fun _ => hlt⟩

/-- **A call of the parser** keeps the bound. -/
lemma Parser.bounded_outcome {bits : ℕ} {q q' : Parser} {d : Option Done} {data rest : List UInt8}
    (h : q.Bounded) (heq : outcome (sub bits) q data = (q', d, rest)) :
    q'.Bounded ∧ (d = some .complete → q'.buffer.length < 2 ^ 63) := by
  obtain ⟨hnone, hsome⟩ := outcome_rule (splits bits)
    (P := fun s _ => s.Bounded)
    (Q := fun s r _ => s.Bounded ∧ (r = .complete → s.buffer.length < 2 ^ 63))
    (fun s a s' k hs hsub => by
      have := (bounded_sub bits hs a).1
      rwa [hsub] at this)
    (fun s a s' r k hs hsub => by
      have := bounded_sub bits hs a
      rw [hsub] at this
      exact ⟨this.1, fun hr => this.2 (congrArg some hr)⟩)
    h
  cases d with
  | none => exact ⟨hnone q' rest heq, by simp⟩
  | some r =>
      obtain ⟨hq, hlt⟩ := hsome q' r rest heq
      exact ⟨hq, fun hr => hlt (Option.some.inj hr)⟩

namespace Connection

/-- The frames written so far are acceptable to the peer, and the parser is within its bound: what
it will make of the bytes at hand is what a parser within the bound makes of some bytes. -/
structure Sound (e : Env) (role : Role) (deflate : Bool) (c : Connection) : Prop where
  role_eq : c.role = role
  deflate_eq : c.permessageDeflate = deflate
  written : ∀ bs ∈ c.written, Acceptable role.peer deflate bs
  parser : ∃ q data, Parser.Bounded q ∧ outcome (Parser.sub e.bits) q data = parseAll e c

variable {e : Env} {role : Role} {deflate : Bool} {c c' : Connection}

lemma Sound.of_wrote (h : c.Sound e role deflate)
    (hwrote : Wrote e (Acceptable role.peer deflate) c c') : c'.Sound e role deflate :=
  ⟨hwrote.role_eq.trans h.role_eq, hwrote.deflate_eq.trans h.deflate_eq,
    hwrote.forall_written h.written, hwrote.parse.symm ▸ h.parser⟩

lemma Sound.admits (h : c.Sound e role deflate) :
    Admits c.role (2 ^ 63 - 1) (2 ^ 63 - 1) (Acceptable role.peer deflate) :=
  h.role_eq ▸ admits_acceptable

lemma Sound.sendFrame (h : c.Sound e role deflate) {op : Opcode} (hop : op ≠ .close)
    {data : List UInt8} (hlen : data.length < 2 ^ 64) (fin : Bool) :
    (sendFrame e c op data fin false).1.Sound e role deflate := by
  refine h.of_wrote (wrote_sendFrame fun key => ?_)
  rw [h.role_eq]
  exact acceptable_emitted hop hlen (by simp)

lemma Sound.withRead (h : c.Sound e role deflate) {q : Parser} (hq : q.Bounded) (rs : ReadState)
    (input : List ReadEvent) : (c.withRead q rs input).Sound e role deflate :=
  ⟨h.role_eq, h.deflate_eq, h.written, q, _, hq, rfl⟩

/-- **A frame is read**; its payload is within the bound. -/
lemma Sound.readFrame (h : c.Sound e role deflate) :
    (readFrame e c).1.Sound e role deflate ∧
      ∀ frame, (readFrame e c).2 = .ok (some frame) → frame.payload.length < 2 ^ 63 := by
  cases hopen : c.isOpen with
  | false =>
      rw [readFrame_of_closed e hopen]
      exact ⟨h, by simp⟩
  | true =>
      have hends := readFrame_cases e hopen
      generalize Connection.readFrame e c = r at hends
      obtain ⟨q₀, data, hq₀, heq⟩ := h.parser
      cases hends with
      | frame hparse hrest hsuffix =>
          obtain ⟨hq, hlen⟩ := Parser.bounded_outcome hq₀ (heq.trans hparse)
          refine ⟨h.withRead hq.takeFrame _ _, fun frame hframe => ?_⟩
          dsimp only at hframe
          rw [verdict] at hframe
          split at hframe
          · simp at hframe
          · rw [Except.ok.injEq, Option.some.injEq] at hframe
            subst hframe
            exact hlen rfl
      | invalid hparse hrest hsuffix =>
          obtain ⟨hq, -⟩ := Parser.bounded_outcome hq₀ (heq.trans hparse)
          have hread := h.withRead hq
          exact ⟨(hread _ _).of_wrote (wrote_failProtocol (hread _ _).admits (by decide)),
            by simp [failProtocol]⟩
      | eof hparse =>
          obtain ⟨hq, -⟩ := Parser.bounded_outcome hq₀ (heq.trans hparse)
          exact ⟨(h.withRead hq _ _).of_wrote (.of_eq rfl rfl rfl rfl), by simp⟩
      | ioError hparse hsuffix => exact ⟨h.of_wrote (.of_eq rfl rfl rfl hparse), by simp⟩

/-- **One turn** of `read_message`. -/
lemma Sound.turn (h : c.Sound e role deflate) : (turn e c).1.Sound e role deflate := by
  obtain ⟨hread, hlen⟩ := h.readFrame
  rw [Connection.turn]
  split
  · rename_i c' err heq
    rw [heq] at hread
    exact hread
  · rename_i c' heq
    rw [heq] at hread
    exact hread
  · rename_i c' frame heq
    rw [heq] at hread hlen
    exact hread.of_wrote (wrote_handleFrame hread.admits fun _ =>
      Nat.le_sub_one_of_lt (hlen frame rfl))

lemma Sound.readMessage (h : c.Sound e role deflate) :
    (readMessage e c).1.Sound e role deflate := by
  have hfuel : ∀ n, ∀ c : Connection, c.Sound e role deflate →
      (readMessageFuel e n c).1.Sound e role deflate := by
    intro n
    induction n with
    | zero => exact fun c h => h
    | succ n ih =>
        intro c h
        have hturn := h.turn
        rw [readMessageFuel]
        split
        · rename_i c' r heq
          rw [heq] at hturn
          exact hturn
        · rename_i c' heq
          rw [heq] at hturn
          exact ih c' hturn
  exact hfuel _ c h

/-- A compressed payload fits the space it was compressed into. -/
lemma compressMessage_length {z : Zlib} (hz : ∀ m space, (z.deflateCall m space).2.length ≤ space)
    {data payload : List UInt8} (hlen : data.length < 2 ^ 63)
    (h : compressMessage z data = some payload) : payload.length < 2 ^ 64 := by
  have hspace := hz data (data.length + 32)
  rw [compressMessage] at h
  split_ifs at h
  · obtain rfl := Option.some.inj h
    decide
  · dsimp only at h
    split_ifs at h
    obtain rfl := Option.some.inj h
    have := List.length_take_le ((z.deflateCall data (data.length + 32)).2.length - 4)
      (z.deflateCall data (data.length + 32)).2
    omega

lemma Sound.sendDataFrame (hz : ∀ m space, (e.zlib.deflateCall m space).2.length ≤ space)
    (h : c.Sound e role deflate) {op : Opcode} (hop : op ≠ .close) {data : List UInt8}
    (hlen : data.length < 2 ^ 63) (fin : Bool) :
    (sendDataFrame e c op data fin).1.Sound e role deflate := by
  refine h.of_wrote (wrote_sendDataFrame (fun key => ?_) fun payload key hdeflate hdata hz' => ?_)
  · rw [h.role_eq]
    exact acceptable_emitted hop (by omega) (by simp)
  · rw [h.role_eq]
    exact acceptable_emitted hop (compressMessage_length hz hlen hz') fun _ =>
      ⟨h.deflate_eq.symm.trans hdeflate, hdata⟩

/-- The bytes that a caller passes. -/
def PublicCall.data : PublicCall → List UInt8
  | send call => call.data
  | sendPong data => data
  | close _ reason => strBytes reason
  | _ => []

/-- A call that leaves the extension as it is, with fewer than `2 ^ 63` bytes passed. -/
def PublicCall.Ordinary (call : PublicCall) : Prop :=
  (∀ enabled, call ≠ setPermessageDeflate enabled) ∧ call.data.length < 2 ^ 63

/-- **One call** keeps the frames acceptable. -/
lemma Sound.call (hz : ∀ m space, (e.zlib.deflateCall m space).2.length ≤ space)
    (h : c.Sound e role deflate) {call : PublicCall} (hcall : call.Ordinary) :
    (call.run e c).Sound e role deflate := by
  obtain ⟨hfixed, hlen⟩ := hcall
  cases call with
  | send call =>
      cases call with
      | text text fin => exact h.sendDataFrame hz (by simp) hlen fin
      | binary data fin => exact h.sendDataFrame hz (by simp) hlen fin
      | continuation data fin =>
          exact h.sendFrame (show Opcode.continuation ≠ .close by simp)
            (Nat.lt_trans hlen (by decide)) fin
      | ping data =>
          exact h.sendFrame (show Opcode.ping ≠ .close by simp)
            (Nat.lt_trans hlen (by decide)) true
  | sendPong data =>
      exact h.sendFrame (show Opcode.pong ≠ .close by simp) (Nat.lt_trans hlen (by decide)) true
  | close code reason => exact h.of_wrote (wrote_close h.admits code (Nat.le_sub_one_of_lt hlen))
  | readFrame => exact h.readFrame.1
  | readMessage => exact h.readMessage
  | setPermessageDeflate enabled => exact absurd rfl (hfixed enabled)

variable (e) in
/-- A step of a session. -/
def Called (c c' : Connection) : Prop :=
  ∃ call : PublicCall, call.Ordinary ∧ c' = call.run e c

/-- **Every session** keeps the frames acceptable. -/
lemma sound_of_called (hz : ∀ m space, (e.zlib.deflateCall m space).2.length ≤ space)
    {input : List ReadEvent}
    (hrun : Relation.ReflTransGen (Called e) (new input role deflate) c) :
    c.Sound e role deflate := by
  induction hrun with
  | refl => exact ⟨rfl, rfl, by simp [new], Parser.new, _, trivial, rfl⟩
  | tail _ hstep ih =>
      obtain ⟨call, hcall, rfl⟩ := hstep
      exact ih.call hz hcall

end Connection

end Rs

/-! ## Both -/

/-- **No endpoint emits a frame that its counterpart rejects.**  Whatever is sent, and whatever
arrives and is answered, every frame written is the byte string of a frame whose header passes the
check of a connection of the other role with the same extension, and a CLOSE frame carries a valid
status code; for wscpp and for ws-rs. -/
theorem emits_acceptable (p : Cpp.Platform) (e : Rs.Env)
    (hz : ∀ m space, (e.zlib.deflateCall m space).2.length ≤ space) (role : Role) (deflate : Bool) :
    (∀ (input : List UInt8) (c : Cpp.Connection),
      Relation.ReflTransGen (Cpp.Moved p) (Cpp.Connection.new role deflate input) c →
        ∀ bs ∈ c.wire, ∃ f : WireFrame, bs = f.encode ∧ CarriesCode f ∧
          ∀ (peer : Cpp.Connection) (rest : List UInt8), peer.role = role.peer →
            peer.permessageDeflate = deflate →
              Cpp.Connection.headerFailure p (peer.withHeader f rest) = none) ∧
    (∀ (input : List Rs.ReadEvent) (c : Rs.Connection),
      Relation.ReflTransGen (Rs.Connection.Called e) (Rs.Connection.new input role deflate) c →
        ∀ bs ∈ c.written, ∃ f : WireFrame, bs = f.encode ∧ CarriesCode f ∧
          ∃ opcode, Opcode.fromU8 f.op = some opcode ∧ ∀ key,
            Rs.Connection.validateIncoming (Rs.headerOf f opcode key) role.peer deflate =
              .ok ()) := by
  constructor
  · intro input c hrun bs hbs
    obtain ⟨f, hf, hheader, hcode⟩ := (Cpp.sound_of_moved hrun).wire bs hbs
    refine ⟨f, hf, hcode, fun peer rest hrole hdeflate => ?_⟩
    rw [Cpp.Connection.headerFailure_eq_none_iff, hrole, hdeflate]
    exact hheader
  · intro input c hrun bs hbs
    obtain ⟨f, hf, hheader, hcode⟩ := (Rs.Connection.sound_of_called hz hrun).written bs hbs
    have hknown : f.known = true := by
      simp only [headerOk, Bool.and_eq_true] at hheader
      exact hheader.1.1
    obtain ⟨opcode, hop⟩ := Option.isSome_iff_exists.mp hknown
    exact ⟨f, hf, hcode, opcode, hop, fun key =>
      (Rs.Connection.validateIncoming_iff role.peer deflate key hop).mpr hheader⟩

/-- A client that says `Hello`, compressed, and closes with an invalid code. -/
def helloMoves : List Cpp.Move := [.sendText hello true, .close 999 []]

/-- The same with ws-rs. -/
def helloCalls : List Rs.Connection.PublicCall := [.send (.binary hello true), .close 999 ""]

/-- A server of either kind takes both frames. -/
theorem emits_acceptable_hello :
    let c := helloMoves.foldl (Cpp.Move.run Cpp.plainPlatform) (.new .client true [])
    let d := helloCalls.foldl (Rs.Connection.PublicCall.run Rs.Connection.plainEnv)
      (.new [] .client true)
    c.wire = [[0xc1, 0x87, 0x00, 0x01, 0x02, 0x03, 0xf2, 0x49, 0xcf, 0xca, 0xc9, 0x06, 0x02],
        [0x88, 0x82, 0x01, 0x01, 0x02, 0x03, 0x02, 0xe9]] ∧
      d.written = [[0xc2, 0x87, 0x00, 0x01, 0x02, 0x03, 0xf2, 0x49, 0xcf, 0xca, 0xc9, 0x06, 0x02],
        [0x88, 0x82, 0x01, 0x01, 0x02, 0x03, 0x02, 0xeb]] ∧
      (∀ bs ∈ c.wire, ∃ f : WireFrame, bs = f.encode ∧ CarriesCode f ∧
        ∀ (peer : Cpp.Connection) (rest : List UInt8), peer.role = .server →
          peer.permessageDeflate = true →
            Cpp.Connection.headerFailure Cpp.plainPlatform (peer.withHeader f rest) = none) ∧
      (∀ bs ∈ d.written, ∃ f : WireFrame, bs = f.encode ∧ CarriesCode f ∧
        ∃ opcode, Opcode.fromU8 f.op = some opcode ∧ ∀ key,
          Rs.Connection.validateIncoming (Rs.headerOf f opcode key) .server true = .ok ()) := by
  have hz : ∀ m space, (Rs.Connection.plainEnv.zlib.deflateCall m space).2.length ≤ space := by
    intro m space
    simp only [Rs.Connection.plainEnv, storedZlib]
    split
    · exact Nat.zero_le space
    · exact List.length_take_le _ _
  obtain ⟨hcpp, hrs⟩ := emits_acceptable Cpp.plainPlatform Rs.Connection.plainEnv hz .client true
  refine ⟨by decide +kernel, by decide +kernel, hcpp [] _ ?_, hrs [] _ ?_⟩
  · exact .tail (.tail .refl ⟨by decide, .sendText hello true, by decide, rfl⟩)
      ⟨by decide +kernel, .close 999 [], by decide, rfl⟩
  · exact .tail (.tail .refl ⟨.send (.binary hello true), ⟨by simp, by decide⟩, rfl⟩)
      ⟨.close 999 "", ⟨by simp, by decide⟩, rfl⟩

end Wscpp
