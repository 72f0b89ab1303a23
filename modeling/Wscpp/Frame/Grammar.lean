import Wscpp.Frame.Wire

/-!
# Which frames may come next

The rules of RFC 6455 §5 that both implementations check on an inbound frame, independent of
either.  Some concern the frame alone, given the role of its receiver and whether
permessage-deflate is in use: the opcode, the reserved bits, the mask (`headerOk`).  The others
concern its place in the stream: a continuation needs a message to continue, and a message may
not begin inside another (`inOrder`).

`Unfinished` is a message of which not all frames have come.  `assemble` says what one more frame
does to it, in terms of the bytes that the receiver takes for the payload of the frame.
-/

namespace Wscpp

/-! ## Opcodes of frames -/

namespace WireFrame

/-- The opcode is one of the six known ones. -/
def known (f : WireFrame) : Bool := (Opcode.fromU8 f.op).isSome

/-- A frame that begins a message. -/
def begins (f : WireFrame) : Bool := f.op == Opcode.text.toU8 || f.op == Opcode.binary.toU8

/-- A frame that continues a message. -/
def continues (f : WireFrame) : Bool := f.op == Opcode.continuation.toU8

end WireFrame

/-! ## The frame alone -/

/-- `RSV2` and `RSV3` are clear, and `RSV1` is set at most on the first frame of a message, with
permessage-deflate in use. -/
def reservedOk (deflate : Bool) (f : WireFrame) : Bool :=
  !f.rsv2 && !f.rsv3 && (!f.rsv1 || (deflate && f.begins))

/-- The frame is masked exactly if it goes to a server. -/
def maskOk (role : Role) (f : WireFrame) : Bool := f.key.isSome == (role == .server)

/-- The frame keeps the rules that do not depend on its place in the stream. -/
def headerOk (role : Role) (deflate : Bool) (f : WireFrame) : Bool :=
  f.known && reservedOk deflate f && maskOk role f

/-! ## Its place in the stream -/

/-- The frame keeps the order of frames, `underway` being whether a message has begun. -/
def inOrder (underway : Bool) (f : WireFrame) : Bool :=
  (!f.continues || underway) && (!f.begins || !underway)

/-- Whether a message has begun and not ended after a frame that keeps the rules. -/
def underwayAfter (underway : Bool) (f : WireFrame) : Bool :=
  if f.begins || f.continues then !f.fin else underway

/-- Whether a message has begun and not ended after a sequence of frames, those that break a rule
of their own left out. -/
def underway (role : Role) (deflate : Bool) (frames : List WireFrame) : Bool :=
  (frames.filter (headerOk role deflate)).foldl underwayAfter false

/-- A message of which some frames have come. -/
structure Unfinished where
  op : UInt8
  payload : List UInt8
  compressed : Bool
  deriving DecidableEq, Repr

/-- One more frame, with `data` taken for its payload: the message under way after it and the
message it completes, or nothing if the frame is out of order. -/
def assemble (m : Option Unfinished) (f : WireFrame) (data : List UInt8) :
    Option (Option Unfinished × Option Unfinished) :=
  if f.continues then
    match m with
    | none => none
    | some q =>
        let q := { q with payload := q.payload ++ data }
        if f.fin then some (none, some q) else some (some q, none)
  else if f.begins then
    match m with
    | some _ => none
    | none =>
        let q := ⟨f.op, data, f.rsv1⟩
        if f.fin then some (none, some q) else some (some q, none)
  else some (m, none)

/-- The message under way after one more frame; a frame out of order changes nothing. -/
def progressAfter (m : Option Unfinished) (f : WireFrame) : Option Unfinished :=
  match assemble m f f.payload with
  | none => m
  | some (next, _) => next

/-- The message under way after a sequence of frames. -/
def progress (frames : List WireFrame) : Option Unfinished := frames.foldl progressAfter none

lemma not_begins_of_continues {f : WireFrame} (h : f.continues = true) : f.begins = false := by
  have hop : f.op = Opcode.continuation.toU8 := by simpa [WireFrame.continues] using h
  rw [WireFrame.begins, hop]
  rfl

/-- The three tests that both implementations make of the reserved bits; `deflate` is whether
the implementation has permessage-deflate at all. -/
lemma reservedBits_iff (deflate negotiated rsv1 rsv2 rsv3 begins continues : Bool)
    (h : continues = true → begins = false) :
    ((deflate && rsv1 && (!negotiated || !(begins || continues))) = false ∧
      (deflate && rsv1 && continues) = false ∧
      (if deflate then rsv2 || rsv3 || (!negotiated && rsv1) else rsv1 || rsv2 || rsv3) = false) ↔
      (!rsv2 && !rsv3 && (!rsv1 || (deflate && negotiated && begins))) = true := by
  revert deflate negotiated rsv1 rsv2 rsv3 begins continues
  decide

/-- A frame is out of order for a message under way exactly if it is so for there being one. -/
lemma assemble_eq_none_iff {m : Option Unfinished} {f : WireFrame} {data : List UInt8} :
    assemble m f data = none ↔ inOrder m.isSome f = false := by
  simp only [assemble, inOrder]
  cases hc : f.continues with
  | true =>
      have hb := not_begins_of_continues hc
      cases m with
      | none => simp
      | some q => cases f.fin <;> simp [hb]
  | false =>
      cases hb : f.begins with
      | false => simp
      | true =>
          cases m with
          | none => cases f.fin <;> simp
          | some q => simp

/-- Whether a message is under way does not depend on its payload. -/
lemma isSome_of_assemble {m next q : Option Unfinished} {f : WireFrame} {data : List UInt8}
    (h : assemble m f data = some (next, q)) : next.isSome = underwayAfter m.isSome f := by
  simp only [assemble] at h
  rw [underwayAfter]
  cases hc : f.continues with
  | true =>
      cases m with
      | none => simp [hc] at h
      | some q =>
          cases hf : f.fin <;> simp [hc, hf] at h <;> simp [← h.1]
  | false =>
      cases hb : f.begins with
      | false =>
          simp [hc, hb] at h
          simp [h.1]
      | true =>
          cases m with
          | none => cases hf : f.fin <;> simp [hc, hb, hf] at h <;> simp [← h.1]
          | some q => simp [hc, hb] at h

end Wscpp
