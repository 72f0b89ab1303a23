import Wscpp.Rs.Segmentation
import Wscpp.Rs.Session

/-!
# When a frame is reported

`Parser::parse` runs its sub-parsers while bytes remain, and it is the payload sub-parser that
completes a frame.  A frame with a payload is therefore completed by its last byte.  A frame
without one has its last byte eaten by the sub-parser before, and the loop ends there: the frame
stays unreported until a byte of the next frame gives the payload sub-parser its turn.

`Parser.taken` is the parser as a caller uses it, fed piece by piece with what earlier calls left
over put in front.  Whatever the pieces, a frame is taken by the time its last byte is in exactly
if it has a payload (`Parser.taken_encode_iff`).  For `read_frame` this matters at the end of a
stream: the calls return every frame exactly if the last one has a payload, and an empty frame at
the end, say a CLOSE without a status code, is lost (`readFrames_arrived_iff`).
-/

namespace Wscpp.Rs

open Incremental

/-- A frame that may arrive: one of the six opcodes, and a payload that fits a slice. -/
structure Arriving (e : Env) extends WireFrame where
  opcode : Opcode
  op_eq : Opcode.fromU8 op = some opcode
  slice : e.Slice payload

namespace Arriving

variable {e : Env}

/-- The frame as `take_frame` returns it; `old` is the key of the frames before. -/
def read (f : Arriving e) (old : Key) : Frame :=
  ⟨headerOf f.toWireFrame f.opcode old, f.payload⟩

/-- The frames of a stream as they are read one after the other. -/
def readAll : Key → List (Arriving e) → List Frame
  | _, [] => []
  | old, f :: fs => f.read old :: readAll (f.key.getD old) fs

/-- The bytes of a stream made of whole frames. -/
def stream (fs : List (Arriving e)) : List UInt8 := fs.flatMap fun f => f.encode

@[simp] lemma stream_cons (f : Arriving e) (fs : List (Arriving e)) :
    stream (f :: fs) = f.encode ++ stream fs := rfl

lemma stream_ne_nil (f : Arriving e) (fs : List (Arriving e)) : stream (f :: fs) ≠ [] := by
  simp [f.encode_ne_nil]

end Arriving

/-! ## The parser, fed in pieces -/

namespace Parser

/-- The frames taken from a parser while bytes arrive in pieces.  Each call gets the bytes that
the calls before it did not consume and the next piece; nothing is called after an error. -/
def taken (bits : ℕ) : Parser → List UInt8 → List (List UInt8) → List Frame
  | _, _, [] => []
  | p, unread, piece :: pieces =>
      match p.parse bits (unread ++ piece) with
      | (q, some .complete, k) =>
          q.takeFrame.1 :: taken bits q.takeFrame.2 ((unread ++ piece).drop k) pieces
      | (_, some .error, _) => []
      | (q, none, k) => taken bits q ((unread ++ piece).drop k) pieces

/-- Nothing is taken while all the bytes together are not a frame. -/
lemma taken_of_none (bits : ℕ) {p : Parser} {unread : List UInt8} {pieces : List (List UInt8)}
    (h : (outcome (sub bits) p (unread ++ pieces.flatten)).2.1 = none) :
    p.taken bits unread pieces = [] := by
  induction pieces generalizing p unread with
  | nil => rfl
  | cons piece pieces ih =>
      rw [List.flatten_cons, ← List.append_assoc] at h
      rw [taken, parse]
      rcases hpump : pump (sub bits) p (unread ++ piece) with ⟨q, _ | r, k⟩
      · apply ih
        rwa [outcome_append_none (splits bits) _ hpump] at h
      · rw [outcome_append_some (splits bits) _ hpump] at h
        cases h

/-- A parser that asked for more asks for more when it is called again on what it left. -/
lemma asks_again {bits : ℕ} {p q : Parser} {a : List UInt8} {k : ℕ}
    (h : pump (sub bits) p a = (q, none, k)) :
    (outcome (sub bits) q (a.drop k)).2.1 = none := by
  have hsame := outcome_append_none (splits bits) [] h
  rw [List.append_nil, List.append_nil] at hsame
  rw [← hsame, outcome, h]

/-- The frame that all the bytes together are is the only one taken. -/
lemma taken_of_complete (bits : ℕ) {p q : Parser} {unread : List UInt8}
    {pieces : List (List UInt8)} (hasks : (outcome (sub bits) p unread).2.1 = none)
    (h : outcome (sub bits) p (unread ++ pieces.flatten) = (q, some .complete, [])) :
    p.taken bits unread pieces = [q.takeFrame.1] := by
  induction pieces generalizing p unread with
  | nil =>
      rw [List.flatten_nil, List.append_nil] at h
      rw [h] at hasks
      cases hasks
  | cons piece pieces ih =>
      rw [List.flatten_cons, ← List.append_assoc] at h
      rw [taken, parse]
      rcases hpump : pump (sub bits) p (unread ++ piece) with ⟨t, _ | r, k⟩
      · rw [outcome_append_none (splits bits) _ hpump] at h
        exact ih (asks_again hpump) h
      · rw [outcome_append_some (splits bits) _ hpump] at h
        simp only [Prod.mk.injEq, Option.some.injEq] at h
        obtain ⟨rfl, rfl, hrest⟩ := h
        -- nothing is left over and nothing comes
        simp only
        rw [taken_of_none bits (by rw [hrest]; rfl)]

/-- **A frame is taken by its last byte exactly if it has a payload.** -/
lemma taken_encode_iff {e : Env} {p : Parser} (hstate : p.state = .header) (f : Arriving e)
    {pieces : List (List UInt8)} (hpieces : pieces.flatten = f.encode) :
    p.taken e.bits [] pieces = [f.read p.header.maskingKey] ↔ f.payload ≠ [] := by
  constructor
  · intro htaken hpay
    have hpending := outcome_encode_pending e.bits hstate f.op_eq hpay
    rw [taken_of_none e.bits (by rw [List.nil_append, hpieces, hpending])] at htaken
    cases htaken
  · intro hpay
    have hasks : (outcome (sub e.bits) p []).2.1 = none := rfl
    have hmore : f.payload ≠ [] ∨ ([] : List UInt8) ≠ [] := .inl hpay
    have hcomplete := outcome_encode hstate f.op_eq f.slice.lt.1 f.slice.lt.2 hmore
    rw [List.append_nil, ← hpieces] at hcomplete
    exact taken_of_complete e.bits hasks hcomplete

end Parser

/-! ## Whole frames on the wire -/

namespace Connection

variable (e : Env)

/-- **Every frame of a stream is returned exactly if the last one has a payload.** -/
lemma readFrames_arrived_iff {c : Connection} (hopen : c.isOpen = true) (fs : List (Arriving e))
    (hat : c.AtFrame (Arriving.stream fs)) :
    readFrames e fs.length c =
        (Arriving.readAll c.parser.header.maskingKey fs).map
          (verdict c.role c.permessageDeflate) ↔
      ∀ f, fs.getLast? = some f → f.payload ≠ [] := by
  induction fs generalizing c with
  | nil => simp [readFrames, Arriving.readAll]
  | cons f fs ih =>
      rw [Arriving.stream_cons] at hat
      have hreturned : f.payload ≠ [] ∨ Arriving.stream fs ≠ [] →
          (readFrames e (f :: fs).length c =
              (Arriving.readAll c.parser.header.maskingKey (f :: fs)).map
                (verdict c.role c.permessageDeflate) ↔
            ∀ g, fs.getLast? = some g → g.payload ≠ []) := by
        intro hne
        obtain ⟨rs, input, hat', heq⟩ := readFrame_frame e hopen hat f.op_eq f.slice hne
        rw [← ih (c := c.withRead _ rs input) hopen hat', List.length_cons, readFrames, heq,
          Arriving.readAll, List.map_cons, List.cons.injEq]
        exact and_iff_right rfl
      cases fs with
      | cons g gs =>
          rw [hreturned (.inr (g.stream_ne_nil gs)), List.getLast?_cons_cons]
      | nil =>
          by_cases hpay : f.payload = []
          · -- the stream ends before the parser gets a further turn
            rw [show Arriving.stream ([] : List (Arriving e)) = [] from rfl,
              List.append_nil] at hat
            have hlost := readFrame_of_empty_last e hopen hat f.op_eq hpay
            constructor
            · intro hall
              rw [List.length_singleton, readFrames, hlost, Arriving.readAll, List.map_cons,
                List.cons.injEq, verdict] at hall
              split at hall
              · cases hall.1
              · cases hall.1
            · intro hlast
              exact absurd hpay (hlast f rfl)
          · rw [hreturned (.inl hpay)]
            simp [hpay]

end Connection

/-- **When ws-rs reports a frame.**  Any parser at a frame boundary, fed a frame in any pieces,
has completed it with the frame's last byte exactly if the frame has a payload; and on a
connection whose stream is made of whole frames, successive calls of `read_frame` return all of
them exactly if the last one has a payload.  A frame that `validate_incoming` refuses is returned
as its error. -/
theorem frames_reported_iff_payload (e : Env) :
    (∀ (p : Parser) (f : Arriving e) (pieces : List (List UInt8)), p.state = .header →
      pieces.flatten = f.encode →
        (p.taken e.bits [] pieces = [f.read p.header.maskingKey] ↔ f.payload ≠ [])) ∧
    ∀ (c : Connection) (fs : List (Arriving e)), c.isOpen = true →
      c.AtFrame (Arriving.stream fs) →
        (c.readFrames e fs.length =
            (Arriving.readAll c.parser.header.maskingKey fs).map
              (Connection.verdict c.role c.permessageDeflate) ↔
          ∀ f, fs.getLast? = some f → f.payload ≠ []) :=
  ⟨fun _ f _ hstate hpieces => Parser.taken_encode_iff hstate f hpieces,
    fun _ fs hopen hat => Connection.readFrames_arrived_iff e hopen fs hat⟩

lemma slice_nil : Connection.plainEnv.Slice [] := by decide

/-- `88 00`: an unmasked CLOSE frame without a status code, arriving at a client. -/
def emptyClose : Arriving Connection.plainEnv where
  toWireFrame := .emitted true false .close none [] (Nat.two_pow_pos 64)
  opcode := .close
  op_eq := Opcode.fromU8_toU8 .close
  slice := slice_nil

lemma closeBytes_ne_nil : ([0x88, 0x00] : List UInt8) ≠ [] := by simp

lemma closeBytes_length_le : ([0x88, 0x00] : List UInt8).length ≤ readChunk := by decide

/-- A client whose server sends the empty CLOSE frame and ends the stream. -/
def closedByServer : Connection :=
  .new [.data ⟨[0x88, 0x00], closeBytes_ne_nil, closeBytes_length_le⟩] .client false

/-- The empty CLOSE frame is not reported: neither by the parser, which has all its bytes, nor by
`read_frame`, which returns the end of the stream instead. -/
theorem empty_close_unreported :
    (¬∀ (p : Parser) (f : Arriving Connection.plainEnv) (pieces : List (List UInt8)),
      p.state = .header → pieces.flatten = f.encode →
        p.taken 64 [] pieces = [f.read p.header.maskingKey]) ∧
    (closedByServer.AtFrame (Arriving.stream [emptyClose]) ∧
      closedByServer.readFrames Connection.plainEnv 1 = [.ok none] ∧
      closedByServer.readFrames Connection.plainEnv 1 ≠
        (Arriving.readAll Key.zero [emptyClose]).map (Connection.verdict .client false)) := by
  refine ⟨?_, ⟨rfl, by decide, rfl⟩, by decide, by decide⟩
  intro hall
  have htaken := hall .new emptyClose [[0x88, 0x00]] rfl (by decide)
  revert htaken
  decide

/-- A frame of one byte at a fresh client parser, its two header bytes and its payload in three
pieces, and the same frame as a whole stream. -/
theorem ping_reported :
    Parser.new.taken 64 [] [[0x89], [0x01], [0x61]] =
        [⟨⟨true, false, false, false, .ping, false, 1, Key.zero⟩, [0x61]⟩] ∧
      (Connection.new [.data ⟨[0x89, 0x01, 0x61], by decide, by decide⟩] .client false).readFrames
          Connection.plainEnv 1 =
        [.ok (some ⟨⟨true, false, false, false, .ping, false, 1, Key.zero⟩, [0x61]⟩)] := by
  let ping : Arriving Connection.plainEnv :=
    { WireFrame.emitted true false .ping none [0x61] (by decide) with
      opcode := .ping, op_eq := rfl, slice := by decide }
  obtain ⟨hparser, hstream⟩ := frames_reported_iff_payload Connection.plainEnv
  refine ⟨(hparser .new ping [[0x89], [0x01], [0x61]] rfl (by decide)).mpr (by decide), ?_⟩
  refine (hstream (.new [.data ⟨[0x89, 0x01, 0x61], by decide, by decide⟩] .client false) [ping]
    rfl ⟨rfl, by decide, rfl⟩).mpr ?_
  intro f hf
  obtain rfl : ping = f := Option.some.inj hf
  decide

end Wscpp.Rs
