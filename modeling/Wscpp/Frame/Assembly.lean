import Wscpp.Frame.Basic

/-!
# Messages and their fragments

The message layer of RFC 6455 §5.4, independent of either implementation.  A `Message` is an
application message cut into fragments, `Message.pieces` the data frames that carry it.

A receiver puts the pieces together again.  `Assembly` is what it has to remember between data
frames, `Assembly.step` what one more data frame does to it: deliver a message, keep part of
one, or be a violation.  `Assembly.run_pieces` says that the pieces of a sequence of messages
give exactly these messages; both connections are compared with this machine.
-/

namespace Wscpp

/-! ## Messages -/

/-- One data frame of a message, stripped of everything but what reassembly needs. -/
structure Piece where
  op : Opcode
  fin : Bool
  payload : List UInt8
  deriving DecidableEq, Repr

/-- The continuation pieces of a fragmented message; only the last one has `FIN`. -/
def contPieces : List (List UInt8) → List Piece
  | [] => []
  | [p] => [⟨.continuation, true, p⟩]
  | p :: q :: ps => ⟨.continuation, false, p⟩ :: contPieces (q :: ps)

/-- An application message cut into fragments, one or more of them, any of them empty. -/
structure Message where
  op : Opcode
  first : List UInt8
  rest : List (List UInt8)
  data : op = .text ∨ op = .binary

namespace Message

/-- The message's content. -/
def payload (m : Message) : List UInt8 := m.first ++ m.rest.flatten

/-- The data frames that carry the message, in order: one frame with `FIN`, or a first frame
without it and continuations up to the last. -/
def pieces (m : Message) : List Piece := ⟨m.op, m.rest.isEmpty, m.first⟩ :: contPieces m.rest

end Message

/-! ## Reassembly -/

/-- What a receiver remembers between data frames. -/
inductive Assembly
  | idle
  | inside (op : Opcode) (buffer : List UInt8)
  deriving DecidableEq, Repr

namespace Assembly

/-- One more data frame: what is remembered afterwards and the message it completes, or nothing
when a continuation has no message to continue or a new message begins inside another. -/
def step : Assembly → Piece → Option (Assembly × Option (Opcode × List UInt8))
  | idle, p =>
      if p.op = .continuation then none
      else if p.fin then some (idle, some (p.op, p.payload))
      else some (inside p.op p.payload, none)
  | inside op buffer, p =>
      if p.op = .continuation then
        if p.fin then some (idle, some (op, buffer ++ p.payload))
        else some (inside op (buffer ++ p.payload), none)
      else none

/-- A sequence of data frames: what is remembered at its end and the messages it completes. -/
def run : Assembly → List Piece → Option (Assembly × List (Opcode × List UInt8))
  | a, [] => some (a, [])
  | a, p :: ps =>
      match step a p with
      | none => none
      | some (a', m) => (run a' ps).map fun r => (r.1, m.toList ++ r.2)

lemma run_cons_eq_some {a b : Assembly} {p : Piece} {ps : List Piece}
    {ms : List (Opcode × List UInt8)} (h : run a (p :: ps) = some (b, ms)) :
    ∃ a' m ms', step a p = some (a', m) ∧ run a' ps = some (b, ms') ∧ ms = m.toList ++ ms' := by
  rw [run] at h
  split at h
  · simp at h
  · rename_i a' m hstep
    rw [Option.map_eq_some_iff] at h
    obtain ⟨⟨b', ms'⟩, hrun, heq⟩ := h
    simp only [Prod.mk.injEq] at heq
    obtain ⟨rfl, rfl⟩ := heq
    exact ⟨a', m, ms', hstep, hrun, rfl⟩

/-- The continuations of a fragmented message complete it. -/
lemma run_contPieces (op : Opcode) (buffer : List UInt8) (rest : List (List UInt8))
    (hrest : rest ≠ []) (ps : List Piece) :
    run (inside op buffer) (contPieces rest ++ ps) =
      (run idle ps).map fun r => (r.1, (op, buffer ++ rest.flatten) :: r.2) := by
  induction rest generalizing buffer with
  | nil => exact absurd rfl hrest
  | cons p rest ih =>
      cases rest with
      | nil => simp [contPieces, run, step]
      | cons q rest =>
          simp only [contPieces, List.cons_append, run, step, if_true, Bool.false_eq_true, if_false]
          rw [ih _ (by simp)]
          simp [Function.comp_def]

/-- The pieces of a message complete it. -/
lemma run_message (m : Message) (ps : List Piece) :
    run idle (m.pieces ++ ps) =
      (run idle ps).map fun r => (r.1, (m.op, m.payload) :: r.2) := by
  have hop : m.op ≠ .continuation := by
    rcases m.data with h | h <;> rw [h] <;> simp
  rcases hrest : m.rest with _ | ⟨p, rest⟩
  · simp [Message.pieces, Message.payload, hrest, contPieces, run, step, hop]
  · have h := run_contPieces m.op m.first m.rest (by simp [hrest]) ps
    rw [Message.pieces, List.cons_append, run, step]
    simp only [hop, if_false, hrest, List.isEmpty_cons, Bool.false_eq_true]
    rw [hrest] at h
    rw [h, Message.payload, hrest]
    simp [Function.comp_def]

/-- **Reassembly undoes fragmentation.** -/
lemma run_pieces (msgs : List Message) :
    run idle (msgs.flatMap Message.pieces) =
      some (idle, msgs.map fun m => (m.op, m.payload)) := by
  induction msgs with
  | nil => rfl
  | cons m msgs ih =>
      rw [List.flatMap_cons, run_message, ih]
      rfl

end Assembly

end Wscpp
