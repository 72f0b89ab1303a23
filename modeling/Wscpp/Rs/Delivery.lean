import Wscpp.Rs.Segmentation
import Wscpp.Rs.Session

/-!
# What `read_message` delivers

`read_message` turns the frames that `read_frame` yields into messages, keeping the message in
progress in `fragment` between frames and between calls.  Here it is compared with a reference
that knows nothing of connections: `Reassembly.step` says what one frame does to the message in
progress and what it produces, `Reassembly.results` what a sequence of frames produces up to the
first error or end.  `results_group` shows the reference at work on one fragmented message, with
control frames anywhere in between.

One frame is a simulation step (`handleFrame_refines`).  For a run the frames are those that
`read_frame` yields when it is called on its own; handling a frame leaves the read side of the
connection alone and reading leaves the rest alone (`readFrame_session`), so the two interleave
without meeting, and `readMessages_eq_results` is an induction over the frames.

The last part follows a text message to the application.  The bytes of a delivered text message
are valid UTF-8, so the conversions in `echo_session` and `recv_text` cannot fail.  Both start
from an established connection; `recv_text` on a client without one is left out.
-/

namespace Wscpp.Rs

open Utf8

/-! ## The reference -/

namespace Reassembly

/-- A message in progress: the opcode and the `RSV1` bit of its first fragment, and the payloads
up to now. -/
structure Group where
  opcode : Opcode
  compressed : Bool
  payload : List UInt8
  deriving DecidableEq, Repr

instance (bs : List UInt8) : Decidable (ValidUtf8 bs) :=
  decidable_of_iff _ (isValidUtf8_iff .little bs)

variable (inflate : List UInt8 → Option (List UInt8))

/-- What a complete group gives: its content, decompressed if it is flagged. -/
def Group.complete (g : Group) : Except Error (Option Message) :=
  match if g.compressed then inflate g.payload else some g.payload with
  | none => .error (.protocol "permessage-deflate decompression failed")
  | some plain =>
      if g.opcode = .text ∧ ¬ValidUtf8 plain then
        .error (.protocol "invalid UTF-8 in text frame")
      else .ok (some ⟨g.opcode, plain⟩)

/-- One more fragment: the group goes on, or is complete. -/
def Group.extend (g : Group) (fin : Bool) :
    Option Group × Option (Except Error (Option Message)) :=
  if fin then (none, some (g.complete inflate)) else (some g, none)

/-- A first fragment `x`, which no message in progress may precede. -/
def start (g : Option Group) (x : Group) (fin : Bool) :
    Option Group × Option (Except Error (Option Message)) :=
  match g with
  | some g =>
      (some g, some (.error (.protocol "New data frame before fragmented message completed")))
  | none => x.extend inflate fin

/-- One frame: the message in progress afterwards, and what the frame produces. -/
def step (g : Option Group) (f : Frame) :
    Option Group × Option (Except Error (Option Message)) :=
  match f.header.opcode with
  | .close => (g, some (.ok none))
  | .ping | .pong => (g, none)
  | .continuation =>
      match g with
      | none => (none, some (.error (.protocol "Unexpected continuation frame")))
      | some g => Group.extend inflate ⟨g.opcode, g.compressed, g.payload ++ f.payload⟩ f.header.fin
  | .text => start inflate g ⟨.text, f.header.rsv1, f.payload⟩ f.header.fin
  | .binary => start inflate g ⟨.binary, f.header.rsv1, f.payload⟩ f.header.fin

/-- Whether a result is a message. -/
def isMessage : Except Error (Option Message) → Bool
  | .ok (some _) => true
  | _ => false

/-- A result and what comes after it; nothing comes after an error or an end. -/
def followedBy (r : Except Error (Option Message)) (rest : List (Except Error (Option Message))) :
    List (Except Error (Option Message)) :=
  r :: if isMessage r then rest else []

/-- The end of the frames, as a result: the end of the stream or an error. -/
def ended {α : Type} (r : Except Error Unit) : Except Error (Option α) := r.map fun _ => none

/-- The results of a sequence of frames up to and including the first error or end; `stop` is
what comes after the frames, if it is known. -/
def results (stop : Option (Except Error Unit)) :
    Option Group → List Frame → List (Except Error (Option Message))
  | _, [] => stop.toList.map ended
  | g, f :: fs =>
      match step inflate g f with
      | (g', none) => results stop g' fs
      | (g', some r) => followedBy r (results stop g' fs)

/-- Frames inside a fragmented message collect the payloads of the continuations and leave the
control frames out. -/
lemma results_middle (stop : Option (Except Error Unit)) (g : Group) {middle : List Frame}
    (h : ∀ f ∈ middle, f.header.opcode = .ping ∨ f.header.opcode = .pong ∨
      (f.header.opcode = .continuation ∧ f.header.fin = false)) (fs : List Frame) :
    results inflate stop (some g) (middle ++ fs) =
      results inflate stop (some ⟨g.opcode, g.compressed, g.payload ++
        (middle.filter (·.header.opcode == .continuation)).flatMap (·.payload)⟩) fs := by
  induction middle generalizing g with
  | nil => simp
  | cons f middle ih =>
      rw [List.forall_mem_cons] at h
      rw [List.cons_append, results, step]
      rcases h.1 with hop | hop | ⟨hop, hfin⟩
      · simp only [hop]
        rw [ih g h.2, List.filter_cons_of_neg (by simp [hop])]
      · simp only [hop]
        rw [ih g h.2, List.filter_cons_of_neg (by simp [hop])]
      · simp only [hop, hfin, Group.extend, Bool.false_eq_true, if_false]
        rw [ih _ h.2, List.filter_cons_of_pos (by simp [hop]), List.flatMap_cons,
          List.append_assoc]

/-- **One fragmented message.**  A first fragment, then continuations and control frames in any
order, then a last continuation give one result: the payloads put together, under the opcode and
the compressed flag of the first. -/
lemma results_group (stop : Option (Except Error Unit)) {first last : Frame}
    {middle : List Frame} (hfirst : first.header.opcode = .text ∨ first.header.opcode = .binary)
    (hmore : first.header.fin = false)
    (hmiddle : ∀ f ∈ middle, f.header.opcode = .ping ∨ f.header.opcode = .pong ∨
      (f.header.opcode = .continuation ∧ f.header.fin = false))
    (hlast : last.header.opcode = .continuation) (hfin : last.header.fin = true)
    (fs : List Frame) :
    results inflate stop none (first :: (middle ++ last :: fs)) =
      followedBy (Group.complete inflate ⟨first.header.opcode, first.header.rsv1, first.payload ++
          (middle.filter (·.header.opcode == .continuation)).flatMap (·.payload) ++ last.payload⟩)
        (results inflate stop none fs) := by
  have hstart : step inflate none first =
      (some ⟨first.header.opcode, first.header.rsv1, first.payload⟩, none) := by
    rcases hfirst with h | h <;> simp [step, start, h, Group.extend, hmore]
  rw [results, hstart]
  simp only
  rw [results_middle inflate stop _ hmiddle, results, step, hlast]
  simp only [Group.extend, hfin, if_true]

end Reassembly

/-! ## One frame -/

/-- The message in progress of a fragment state. -/
def FragmentState.group (s : FragmentState) : Option Reassembly.Group :=
  if s.active then some ⟨s.opcode, s.compressed, s.buffer⟩ else none

namespace Connection

open Reassembly

variable {e : Env}

/-- The connection is open and its message in progress is `g`, compressed only if the extension
is there. -/
structure Follows (c : Connection) (g : Option Group) : Prop where
  isOpen : c.isOpen = true
  group : c.fragment.group = g
  compressed : ∀ x ∈ g, x.compressed = true → c.permessageDeflate = true

lemma Follows.active {c : Connection} {x : Group} (h : c.Follows (some x)) :
    c.fragment.active = true ∧ x = ⟨c.fragment.opcode, c.fragment.compressed,
      c.fragment.buffer⟩ := by
  have hgroup := h.group
  rw [FragmentState.group] at hgroup
  split at hgroup
  · exact ⟨by assumption, (Option.some.inj hgroup).symm⟩
  · cases hgroup

lemma Follows.inactive {c : Connection} (h : c.Follows none) : c.fragment.active = false := by
  have hgroup := h.group
  rw [FragmentState.group] at hgroup
  split at hgroup
  · cases hgroup
  · simpa using ‹¬c.fragment.active = true›

lemma deflate_of_validated {header : FrameHeader} {role : Role} {deflate : Bool}
    (h : validateIncoming header role deflate = .ok ()) (hrsv : header.rsv1 = true) :
    deflate = true := by
  cases deflate with
  | true => rfl
  | false => simp [validateIncoming, hrsv] at h

/-- A turn gives what a step of the reference gives, and goes on with what it goes on with. -/
structure Refines (role : Role) (deflate : Bool)
    (r : Connection × Option (Except Error (Option Message)))
    (s : Option Group × Option (Except Error (Option Message))) : Prop where
  result : r.2 = s.2
  follows : r.2.all isMessage = true →
    r.1.Follows s.1 ∧ r.1.role = role ∧ r.1.permessageDeflate = deflate

section Writing

variable (hw : ∀ i, e.write i = .done)

include hw

/-- `deliver_message` gives what the group gives, and leaves the connection alone if that is a
message. -/
lemma deliverMessage_complete (c : Connection) (g : Group)
    (hneg : g.compressed = true → c.permessageDeflate = true) :
    (deliverMessage e c g.opcode g.payload g.compressed).2.map some =
        g.complete (decompressMessage e.zlib) ∧
      (isMessage (g.complete (decompressMessage e.zlib)) = true →
        (deliverMessage e c g.opcode g.payload g.compressed).1 = c) := by
  -- the text check is the same behind decompression and without it
  have hplain : ∀ plain,
      (deliverPlain e c g.opcode plain).2.map some =
          (if g.opcode = .text ∧ ¬ValidUtf8 plain then
            .error (.protocol "invalid UTF-8 in text frame")
          else .ok (some ⟨g.opcode, plain⟩)) ∧
        (isMessage (if g.opcode = .text ∧ ¬ValidUtf8 plain then
            .error (.protocol "invalid UTF-8 in text frame")
          else .ok (some ⟨g.opcode, plain⟩)) = true →
          (deliverPlain e c g.opcode plain).1 = c) := by
    intro plain
    have hiff : (g.opcode == .text && !isValidUtf8 plain) = true ↔
        g.opcode = .text ∧ ¬ValidUtf8 plain := by
      rw [← isValidUtf8_iff .little plain]
      simp [isValidUtf8]
    rw [deliverPlain, close, sendClose_done e (hw _)]
    by_cases hbad : g.opcode = .text ∧ ¬ValidUtf8 plain
    · rw [if_pos hbad, if_pos (hiff.mpr hbad)]
      exact ⟨rfl, fun h => by cases h⟩
    · rw [if_neg hbad, if_neg fun h => hbad (hiff.mp h)]
      exact ⟨rfl, fun _ => rfl⟩
  rw [deliverMessage, Group.complete]
  cases hz : g.compressed with
  | false => exact hplain g.payload
  | true =>
      rw [if_pos rfl, if_pos rfl, if_neg (by simp [hneg hz])]
      cases decompressMessage e.zlib g.payload with
      | none => exact ⟨rfl, fun h => by cases h⟩
      | some plain => exact hplain plain

/-- A fragment that ends a message is delivered from `c`, any other is kept in `d`. -/
lemma extend_refines {c d : Connection} {g : Group} (hc : c.Follows none)
    (hd : d.Follows (some g)) (hrole : d.role = c.role)
    (hdeflate : d.permessageDeflate = c.permessageDeflate) (fin : Bool) :
    Refines c.role c.permessageDeflate
      (if fin then finish (deliverMessage e c g.opcode g.payload g.compressed) some
        else (d, none))
      (g.extend (decompressMessage e.zlib) fin) := by
  have hneg : g.compressed = true → c.permessageDeflate = true := by
    rw [← hdeflate]
    exact hd.compressed g rfl
  obtain ⟨hresult, hsame⟩ := deliverMessage_complete hw c g hneg
  cases fin with
  | false => exact ⟨rfl, fun _ => ⟨hd, hrole, hdeflate⟩⟩
  | true =>
      refine ⟨congrArg some hresult, fun hmessage => ?_⟩
      have hmessage' : isMessage (g.complete (decompressMessage e.zlib)) = true := by
        rw [← hresult]
        exact hmessage
      rw [if_pos rfl, finish, hsame hmessage']
      exact ⟨hc, rfl, rfl⟩

lemma handleData_refines {c : Connection} {g : Option Group} (hc : c.Follows g) {f : Frame}
    (hvalid : validateIncoming f.header c.role c.permessageDeflate = .ok ()) (op : Opcode) :
    Refines c.role c.permessageDeflate (handleData e c f op)
      (start (decompressMessage e.zlib) g ⟨op, f.header.rsv1, f.payload⟩ f.header.fin) := by
  rw [handleData]
  cases g with
  | some x =>
      rw [hc.active.1]
      exact ⟨rfl, fun h => by cases h⟩
  | none =>
      have hnext : ({ c with fragment := ⟨true, f.payload, op, f.header.rsv1⟩ } :
          Connection).Follows (some ⟨op, f.header.rsv1, f.payload⟩) := by
        refine ⟨hc.isOpen, rfl, fun x hx hz => ?_⟩
        cases hx
        exact deflate_of_validated hvalid hz
      have hextend := extend_refines hw hc hnext rfl rfl f.header.fin
      rw [hc.inactive]
      cases hfin : f.header.fin <;> simpa [hfin, start] using hextend

lemma continuation_refines {c : Connection} {x : Group} (hc : c.Follows (some x)) (f : Frame) :
    Refines c.role c.permessageDeflate
      (if f.header.fin then
        finish (deliverMessage e { c with fragment := .reset } c.fragment.opcode
          (c.fragment.buffer ++ f.payload) c.fragment.compressed) some
      else ({ c with fragment :=
        { c.fragment with buffer := c.fragment.buffer ++ f.payload } }, none))
      (Group.extend (decompressMessage e.zlib)
        ⟨x.opcode, x.compressed, x.payload ++ f.payload⟩ f.header.fin) := by
  obtain ⟨hactive, rfl⟩ := hc.active
  have hreset : ({ c with fragment := .reset } : Connection).Follows none :=
    ⟨hc.isOpen, rfl, fun x hx => by cases hx⟩
  have hnext : ({ c with fragment :=
      { c.fragment with buffer := c.fragment.buffer ++ f.payload } } : Connection).Follows
        (some ⟨c.fragment.opcode, c.fragment.compressed, c.fragment.buffer ++ f.payload⟩) := by
    refine ⟨hc.isOpen, by simp [FragmentState.group, hactive], fun x hx hz => ?_⟩
    cases hx
    exact hc.compressed _ rfl hz
  exact extend_refines hw hreset hnext rfl rfl f.header.fin

/-- **One frame does what the reference says.** -/
lemma handleFrame_refines {c : Connection} {g : Option Group} (hc : c.Follows g) {f : Frame}
    (hvalid : validateIncoming f.header c.role c.permessageDeflate = .ok ()) :
    Refines c.role c.permessageDeflate (handleFrame e c f)
      (step (decompressMessage e.zlib) g f) := by
  cases hop : f.header.opcode with
  | text =>
      simp only [handleFrame, step, hop]
      exact handleData_refines hw hc hvalid .text
  | binary =>
      simp only [handleFrame, step, hop]
      exact handleData_refines hw hc hvalid .binary
  | close =>
      simp only [handleFrame, step, hop, handleCloseFrame]
      rw [sendClose_done e (hw _)]
      exact ⟨rfl, fun h => by cases h⟩
  | ping =>
      simp only [handleFrame, step, hop, sendPong]
      rw [sendFrame_done e (hw _)]
      exact ⟨rfl, fun _ => ⟨⟨hc.isOpen, hc.group, hc.compressed⟩, rfl, rfl⟩⟩
  | pong =>
      simp only [handleFrame, step, hop]
      exact ⟨rfl, fun _ => ⟨hc, rfl, rfl⟩⟩
  | continuation =>
      simp only [handleFrame, step, hop]
      cases g with
      | none =>
          rw [hc.inactive]
          exact ⟨rfl, fun h => by cases h⟩
      | some x =>
          rw [if_neg (by simp [hc.active.1])]
          exact continuation_refines hw hc f

end Writing

/-! ## Reading and handling do not meet -/

/-- A result of reading that belongs to the session of `d`: the same result, and if it is a frame
the same read side. -/
def SameRead (d : Connection) (r s : Connection × Except Error (Option Frame)) : Prop :=
  s.2 = r.2 ∧ ∀ f, r.2 = .ok (some f) →
    s.1 = d.withRead r.1.parser r.1.readState r.1.input

lemma completeFrame_session {c d : Connection} (hrole : d.role = c.role)
    (hdeflate : d.permessageDeflate = c.permessageDeflate) :
    SameRead d (completeFrame c) (completeFrame (d.withRead c.parser c.readState c.input)) := by
  have hsame : validateIncoming c.parser.takeFrame.1.header d.role d.permessageDeflate =
      validateIncoming c.parser.takeFrame.1.header c.role c.permessageDeflate := by
    rw [hrole, hdeflate]
  simp only [completeFrame, withRead, hsame]
  split
  · exact ⟨rfl, fun f hf => by cases hf⟩
  · exact ⟨rfl, fun f _ => rfl⟩

variable (e) in
/-- The loop of `read_frame` uses nothing of the session but its role and its extension. -/
lemma readLoop_session {c d : Connection} (hrole : d.role = c.role)
    (hdeflate : d.permessageDeflate = c.permessageDeflate) (input : List ReadEvent) :
    SameRead d (readLoop e c input)
      (readLoop e (d.withRead c.parser c.readState c.input) input) := by
  induction input generalizing c with
  | nil =>
      rw [readLoop, readLoop]
      simp only [parseBuffered, withRead]
      rcases c.parser.parse e.bits c.readState.unparsed with ⟨q, _ | _ | _, k⟩
      · exact ⟨rfl, fun f hf => by cases hf⟩
      · exact completeFrame_session (c := { c with
          parser := q, readState := ⟨_, _⟩, input := [] }) hrole hdeflate
      · exact ⟨rfl, fun f hf => by cases hf⟩
  | cons ev input ih =>
      rw [readLoop, readLoop]
      simp only [parseBuffered, withRead]
      rcases c.parser.parse e.bits c.readState.unparsed with ⟨q, _ | _ | _, k⟩
      · cases ev with
        | error => exact ⟨rfl, fun f hf => by cases hf⟩
        | data chunk =>
            simp only [compact]
            split
            · exact ih (c := { c with
                parser := q, readState := ⟨_, 0⟩, input := .data chunk :: input }) hrole hdeflate
            · exact ih (c := { c with
                parser := q, readState := ⟨_, _⟩, input := .data chunk :: input }) hrole hdeflate
      · exact completeFrame_session (c := { c with
          parser := q, readState := ⟨_, _⟩, input := ev :: input }) hrole hdeflate
      · exact ⟨rfl, fun f hf => by cases hf⟩

variable (e) in
/-- `read_frame` on a connection with the read side of another. -/
lemma readFrame_session {c d : Connection} (hopen : d.isOpen = c.isOpen)
    (hrole : d.role = c.role) (hdeflate : d.permessageDeflate = c.permessageDeflate) :
    SameRead d (readFrame e c) (readFrame e (d.withRead c.parser c.readState c.input)) := by
  have hloop := readLoop_session e hrole hdeflate c.input
  rw [readFrame, readFrame]
  cases hc : c.isOpen with
  | false =>
      rw [show (d.withRead c.parser c.readState c.input).isOpen = false from hopen.trans hc]
      exact ⟨rfl, fun f hf => by cases hf⟩
  | true =>
      rw [show (d.withRead c.parser c.readState c.input).isOpen = true from hopen.trans hc]
      exact hloop

/-! ## Runs -/

variable (e) in
/-- Successive calls of `read_frame` yield these frames, and then, if it is known, what ends
them. -/
def Yields (c : Connection) (fs : List Frame) (stop : Option (Except Error Unit)) : Prop :=
  readFrames e (fs.length + stop.toList.length) c =
    fs.map (fun f => .ok (some f)) ++ stop.toList.map ended

variable (e) in
lemma Yields.cons {c : Connection} {f : Frame} {fs : List Frame}
    {stop : Option (Except Error Unit)} (h : Yields e c (f :: fs) stop) :
    (readFrame e c).2 = .ok (some f) ∧ Yields e (readFrame e c).1 fs stop := by
  rw [Yields, List.length_cons, Nat.add_right_comm, readFrames, List.map_cons, List.cons_append,
    List.cons.injEq] at h
  exact h

/-- The end of the frames is the result of the call that meets it. -/
lemma readMessages_stop {c : Connection} {r : Except Error Unit}
    (h : (readFrame e c).2 = ended r) :
    (readMessages e [(ended r : Except Error (Option Message))].length c).1 = [ended r] := by
  have hturn : turn e c = ((readFrame e c).1, some (ended r)) := by
    rw [turn]
    rcases hframe : readFrame e c with ⟨c', r'⟩
    rw [hframe] at h
    obtain rfl : r' = ended r := h
    cases r <;> rfl
  rw [List.length_singleton, readMessages_of_result hturn 0]
  rfl

/-- An open session `d` with the read side of the open connection `c`. -/
structure Shares (c d : Connection) : Prop where
  isOpen : c.isOpen = true
  read : d.withRead c.parser c.readState c.input = d
  role : d.role = c.role
  deflate : d.permessageDeflate = c.permessageDeflate

lemma Shares.readFrame {c d : Connection} {g : Option Group} (h : Shares c d)
    (hd : d.Follows g) : SameRead d (readFrame e c) (readFrame e d) := by
  have hsame := readFrame_session e (hd.isOpen.trans h.isOpen.symm) h.role h.deflate
  rwa [h.read] at hsame

/-- **One turn** on a session that shares the read side of a connection that yields a frame. -/
lemma turn_refines (hw : ∀ i, e.write i = .done) {c d : Connection} {g : Option Group}
    (h : Shares c d) (hd : d.Follows g) {f : Frame}
    (hframe : (Connection.readFrame e c).2 = .ok (some f)) :
    (turn e d).2 = (step (decompressMessage e.zlib) g f).2 ∧
      ((turn e d).2.all isMessage = true →
        (turn e d).1.Follows (step (decompressMessage e.zlib) g f).1 ∧
          Shares (Connection.readFrame e c).1 (turn e d).1) := by
  obtain ⟨hresult, hside⟩ := h.readFrame (e := e) hd
  have hpair : Connection.readFrame e c = ((Connection.readFrame e c).1, .ok (some f)) :=
    Prod.ext rfl hframe
  obtain ⟨-, q, rs, input, -, hc', -, hvalid⟩ := readFrame_eq_frame e hpair
  rw [hc'] at hside ⊢
  have hturn : turn e d = handleFrame e (d.withRead q.takeFrame.2 rs input) f := by
    have hread : Connection.readFrame e d = (d.withRead q.takeFrame.2 rs input, .ok (some f)) :=
      Prod.ext (hside f hframe) (hresult.trans hframe)
    rw [turn, hread]
  have hd' : (d.withRead q.takeFrame.2 rs input).Follows g :=
    ⟨hd.isOpen, hd.group, hd.compressed⟩
  have hrefines := handleFrame_refines hw hd' (f := f) (by
    rw [← h.role, ← h.deflate] at hvalid
    exact hvalid)
  rw [hturn]
  refine ⟨hrefines.result, fun hmessage => ?_⟩
  obtain ⟨hfollows, hrole, hdeflate⟩ := hrefines.follows hmessage
  exact ⟨hfollows, h.isOpen, handleFrame_read e _ f, hrole.trans h.role, hdeflate.trans h.deflate⟩

/-- **Runs.**  A session that shares the read side of `c` gives, call by call, the results of the
reference on the frames that `c` yields. -/
lemma readMessages_eq_results (hw : ∀ i, e.write i = .done) (fs : List Frame)
    {stop : Option (Except Error Unit)} {c d : Connection} {g : Option Group}
    (hyields : Yields e c fs stop) (h : Shares c d) (hd : d.Follows g) :
    (readMessages e (results (decompressMessage e.zlib) stop g fs).length d).1 =
      results (decompressMessage e.zlib) stop g fs := by
  induction fs generalizing c d g with
  | nil =>
      cases stop with
      | none => rfl
      | some r =>
          have hstop : (Connection.readFrame e d).2 = ended r :=
            (h.readFrame hd).1.trans (List.cons.inj hyields).1
          exact readMessages_stop hstop
  | cons f fs ih =>
      obtain ⟨hframe, hyields'⟩ := Yields.cons e hyields
      obtain ⟨hresult, hnext⟩ := turn_refines hw h hd hframe
      rw [results]
      rcases hstep : step (decompressMessage e.zlib) g f with ⟨g', _ | r⟩
      · rw [hstep] at hresult hnext
        obtain ⟨hfollows, hshares⟩ := hnext (by rw [hresult]; rfl)
        have hih := ih hyields' hshares hfollows
        simp only at hih ⊢
        generalize results (decompressMessage e.zlib) stop g' fs = rs at hih ⊢
        cases rs with
        | nil => rfl
        | cons r rs =>
            rw [List.length_cons] at hih ⊢
            rw [readMessages_of_continue (Prod.ext rfl hresult), hih]
      · rw [hstep] at hresult hnext
        have hreturn : turn e d = ((turn e d).1, some r) := Prod.ext rfl hresult
        simp only [followedBy, List.length_cons]
        rw [readMessages_of_result hreturn]
        -- only behind a message is there a next call
        cases hmessage : isMessage r with
        | false => rfl
        | true =>
            obtain ⟨hfollows, hshares⟩ := hnext (by rw [hresult]; exact hmessage)
            have hih := ih hyields' hshares hfollows
            rw [if_pos rfl, hih]

/-- **`read_message` is the reference reassembly.**  For every sequence of frames that `read_frame`
yields, on a connection between two messages and with writes that succeed, successive calls of
`read_message` return exactly what the reference makes of these frames, up to and including its
first error or end. -/
theorem readMessages_reassembly (hw : ∀ i, e.write i = .done) {c : Connection}
    (hbetween : c.fragment.active = false) {fs : List Frame}
    {stop : Option (Except Error Unit)} (hyields : Yields e c fs stop) :
    (readMessages e (results (decompressMessage e.zlib) stop none fs).length c).1 =
      results (decompressMessage e.zlib) stop none fs := by
  cases hopen : c.isOpen with
  | true =>
      have hgroup : c.fragment.group = none := by
        rw [FragmentState.group, hbetween]
        rfl
      exact readMessages_eq_results hw fs hyields ⟨hopen, rfl, rfl, rfl⟩
        ⟨hopen, hgroup, fun x hx => by cases hx⟩
  | false =>
      -- a closed connection yields no frame
      cases fs with
      | cons f fs =>
          have hframe := (Yields.cons e hyields).1
          rw [readFrame_of_closed e hopen] at hframe
          cases hframe
      | nil =>
          cases stop with
          | none => rfl
          | some r => exact readMessages_stop (List.cons.inj hyields).1

lemma greeting_ne_nil : ([0x01, 0x01, 0x48, 0x89, 0x01, 0x07, 0x80, 0x01, 0x69, 0x88, 0x02, 0x03,
    0xe8, 0x82, 0x01, 0x00] : List UInt8) ≠ [] := by simp

lemma greeting_length_le : ([0x01, 0x01, 0x48, 0x89, 0x01, 0x07, 0x80, 0x01, 0x69, 0x88, 0x02,
    0x03, 0xe8, 0x82, 0x01, 0x00] : List UInt8).length ≤ readChunk := by decide

/-- A client that is sent `Hi` in two fragments around a ping, a CLOSE frame, and a binary message
behind it. -/
def greeted : Connection :=
  new [.data ⟨[0x01, 0x01, 0x48, 0x89, 0x01, 0x07, 0x80, 0x01, 0x69, 0x88, 0x02, 0x03, 0xe8, 0x82,
    0x01, 0x00], greeting_ne_nil, greeting_length_le⟩] .client false

/-- The frames of `greeted`, all of which `read_frame` yields, become one message and the end. -/
theorem readMessages_reassembly_greeted :
    (readMessages plainEnv 2 greeted).1 = [.ok (some ⟨.text, [0x48, 0x69]⟩), .ok none] := by
  let fs : List Frame :=
    [⟨⟨false, false, false, false, .text, false, 1, Key.zero⟩, [0x48]⟩,
      ⟨⟨true, false, false, false, .ping, false, 1, Key.zero⟩, [0x07]⟩,
      ⟨⟨true, false, false, false, .continuation, false, 1, Key.zero⟩, [0x69]⟩,
      ⟨⟨true, false, false, false, .close, false, 2, Key.zero⟩, [0x03, 0xe8]⟩,
      ⟨⟨true, false, false, false, .binary, false, 1, Key.zero⟩, [0x00]⟩]
  have hresults : results (decompressMessage plainEnv.zlib) (some (.ok ())) none fs =
      [.ok (some ⟨.text, [0x48, 0x69]⟩), .ok none] := by
    decide
  have hyields : Yields plainEnv greeted fs (some (.ok ())) := by
    unfold Yields
    decide
  have hread := readMessages_reassembly (fun _ => rfl) rfl hyields
  rwa [hresults] at hread

/-! ## Text messages are text -/

section Text

variable (e)

lemma deliverPlain_text {c : Connection} {op : Opcode} {plain : List UInt8} {m : Message}
    (h : (deliverPlain e c op plain).2 = .ok m) (htext : m.opcode = .text) :
    ValidUtf8 m.payload := by
  rw [deliverPlain] at h
  split at h
  · split at h <;> cases h
  · rename_i hvalid
    cases h
    obtain rfl : op = .text := htext
    rw [← isValidUtf8_iff .little]
    simpa [isValidUtf8] using hvalid

lemma deliverMessage_text {c : Connection} {op : Opcode} {payload : List UInt8} {compressed : Bool}
    {m : Message} (h : (deliverMessage e c op payload compressed).2 = .ok m)
    (htext : m.opcode = .text) : ValidUtf8 m.payload := by
  rw [deliverMessage] at h
  split at h
  · split at h
    · cases h
    · split at h
      · cases h
      · exact deliverPlain_text e h htext
  · exact deliverPlain_text e h htext

lemma finish_message {r : Connection × Except Error Message} {m : Message}
    (h : (finish r some).2 = some (.ok (some m))) : r.2 = .ok m := by
  rcases r with ⟨c, _ | m'⟩
  · cases h
  · cases h
    rfl

lemma handleData_text {c : Connection} {f : Frame} {op : Opcode} {m : Message}
    (h : (handleData e c f op).2 = some (.ok (some m))) (htext : m.opcode = .text) :
    ValidUtf8 m.payload := by
  rw [handleData] at h
  split at h
  · cases h
  · split at h
    · cases h
    · exact deliverMessage_text e (finish_message h) htext

lemma handleFrame_text {c : Connection} {f : Frame} {m : Message}
    (h : (handleFrame e c f).2 = some (.ok (some m))) (htext : m.opcode = .text) :
    ValidUtf8 m.payload := by
  cases hop : f.header.opcode with
  | text =>
      simp only [handleFrame, hop] at h
      exact handleData_text e h htext
  | binary =>
      simp only [handleFrame, hop] at h
      exact handleData_text e h htext
  | close =>
      simp only [handleFrame, hop] at h
      rcases hclose : handleCloseFrame e c f.payload with ⟨c', _ | _⟩ <;>
        rw [hclose] at h <;> cases h
  | ping =>
      simp only [handleFrame, hop] at h
      split at h <;> cases h
  | pong =>
      simp only [handleFrame, hop] at h
      cases h
  | continuation =>
      simp only [handleFrame, hop] at h
      split at h
      · cases h
      · split at h
        · exact deliverMessage_text e (finish_message h) htext
        · cases h

/-- A turn that gives a message has completed a frame, and a text message is valid UTF-8. -/
lemma turn_message {c c' : Connection} {m : Message} (h : turn e c = (c', some (.ok (some m)))) :
    c'.todo < c.todo ∧ (m.opcode = .text → ValidUtf8 m.payload) := by
  rw [turn] at h
  split at h
  · cases h
  · cases h
  · rename_i c₁ frame hread
    have hless := todo_of_handleFrame e hread
    rw [h] at hless
    exact ⟨hless, handleFrame_text e (congrArg Prod.snd h)⟩

/-- The same of a call that returns a message. -/
lemma readMessage_message {c c' : Connection} {m : Message}
    (h : readMessage e c = (c', .ok (some m))) :
    c'.todo < c.todo ∧ (m.opcode = .text → ValidUtf8 m.payload) := by
  induction htodo : c.todo using Nat.strongRecOn generalizing c with
  | ind n ih =>
      subst htodo
      rw [readMessage_eq] at h
      rcases hturn : turn e c with ⟨c₁, _ | r⟩
      · rw [hturn] at h
        have hless := todo_of_turn e hturn
        obtain ⟨hlt, hvalid⟩ := ih c₁.todo hless h rfl
        exact ⟨by omega, hvalid⟩
      · rw [hturn] at h
        obtain ⟨rfl, rfl⟩ := Prod.mk.inj h
        exact turn_message e hturn

/-! ## The application's side -/

/-- `std::str::from_utf8` and `String::from_utf8`. -/
def fromUtf8 (bs : List UInt8) : Option String := String.fromUTF8? bs.toByteArray

lemma fromUtf8_of_valid {bs : List UInt8} (h : ValidUtf8 bs) :
    ∃ s, fromUtf8 bs = some s ∧ strBytes s = bs := by
  obtain ⟨cs, rfl⟩ := h
  have hvalid : (cs.flatMap String.utf8EncodeChar).toByteArray.IsValidUTF8 := ⟨cs, rfl⟩
  refine ⟨String.fromUTF8 _ hvalid, ?_, ?_⟩
  · rw [fromUtf8, String.fromUTF8?, dif_pos hvalid]
  · show (cs.flatMap String.utf8EncodeChar).toByteArray.data.toList = _
    rw [List.data_toByteArray]

/-- What `echo_session` does with a message; `failure` is its answer to text that is not UTF-8. -/
def echoReply (failure : Except Error Unit) (c : Connection) (m : Message) :
    Connection × Except Error Unit :=
  match m.opcode with
  | .text =>
      match fromUtf8 m.payload with
      | none => (c, failure)
      | some text => sendText e c text true
  | .binary => sendBinary e c m.payload true
  | .ping | .pong | .close | .continuation => (c, .ok ())

/-- The loop of `echo_session`, for at most so many turns. -/
def echoLoop (failure : Except Error Unit) : ℕ → Connection → Connection × Except Error Unit
  | 0, c => (c, .ok ())
  | n + 1, c =>
      if !c.isOpen then (c, .ok ())
      else
        match readMessage e c with
        | (c, .error err) => (c, .error err)
        | (c, .ok none) => (c, .ok ())
        | (c, .ok (some m)) =>
            match echoReply e failure c m with
            | (c, .error err) => (c, .error err)
            | (c, .ok ()) => echoLoop failure n c

/-- `echo_session`.  Every turn but the last reads a message, so the frames that the connection
can still complete bound the number of turns (`echoSession_eq`). -/
def echoSession (c : Connection) : Connection × Except Error Unit :=
  echoLoop e (.error (.protocol "invalid UTF-8")) (c.todo + 1) c

/-- The conversion of `recv_text`. -/
def recvConvert (failure : Except Error (Option String)) (payload : List UInt8) :
    Except Error (Option String) :=
  match fromUtf8 payload with
  | none => failure
  | some text => .ok (some text)

/-- The loop of `recv_text`, for at most so many turns; `failure` is the answer to a text message
that is not UTF-8. -/
def recvLoop (failure : Except Error (Option String)) :
    ℕ → Connection → Connection × Except Error (Option String)
  | 0, c => (c, .ok none)
  | n + 1, c =>
      match readMessage e c with
      | (c, .error err) => (c, .error err)
      | (c, .ok none) => (c, .ok none)
      | (c, .ok (some m)) =>
          if m.opcode == .text then (c, recvConvert failure m.payload)
          else if m.opcode == .binary then
            (c, recvConvert (.error (.protocol "invalid UTF-8")) m.payload)
          else recvLoop failure n c

/-- `recv_text`. -/
def recvText (c : Connection) : Connection × Except Error (Option String) :=
  recvLoop e (.error (.protocol "invalid UTF-8")) (c.todo + 1) c

lemma todo_sendFrame (c : Connection) (op : Opcode) (data : List UInt8) (fin rsv1 : Bool) :
    (sendFrame e c op data fin rsv1).1.todo = c.todo := by
  simp only [sendFrame, sendFrameInto, sendRaw]
  split <;> rfl

lemma todo_sendDataFrame (c : Connection) (op : Opcode) (data : List UInt8) (fin : Bool) :
    (sendDataFrame e c op data fin).1.todo = c.todo := by
  rw [sendDataFrame]
  split
  · split
    · rfl
    · exact todo_sendFrame e c op _ fin true
  · exact todo_sendFrame e c op data fin false

lemma todo_echoReply (failure : Except Error Unit) (c : Connection) (m : Message) :
    (echoReply e failure c m).1.todo = c.todo := by
  cases hop : m.opcode with
  | text =>
      simp only [echoReply, hop]
      split
      · rfl
      · exact todo_sendDataFrame e c .text _ true
  | binary =>
      simp only [echoReply, hop]
      exact todo_sendDataFrame e c .binary _ true
  | close => simp only [echoReply, hop]
  | ping => simp only [echoReply, hop]
  | pong => simp only [echoReply, hop]
  | continuation => simp only [echoReply, hop]

lemma echoLoop_congr (failure : Except Error Unit) {n k : ℕ} {c : Connection} (hn : c.todo < n)
    (hk : c.todo < k) : echoLoop e failure n c = echoLoop e failure k c := by
  induction n generalizing k c with
  | zero => omega
  | succ n ih =>
      obtain ⟨k, rfl⟩ : ∃ j, k = j + 1 := ⟨k - 1, by omega⟩
      rw [echoLoop, echoLoop]
      split
      · rfl
      · rcases hread : readMessage e c with ⟨c', _ | _ | m⟩
        · rfl
        · rfl
        · have hless := (readMessage_message e hread).1
          have hsame := todo_echoReply e failure c' m
          simp only
          split
          · rfl
          · rename_i c'' hreply
            rw [hreply] at hsame
            simp only at hsame
            exact ih (by omega) (by omega)

/-- **`echo_session` is its loop.** -/
lemma echoSession_eq (c : Connection) :
    echoSession e c =
      if !c.isOpen then (c, .ok ())
      else
        match readMessage e c with
        | (c, .error err) => (c, .error err)
        | (c, .ok none) => (c, .ok ())
        | (c, .ok (some m)) =>
            match echoReply e (.error (.protocol "invalid UTF-8")) c m with
            | (c, .error err) => (c, .error err)
            | (c, .ok ()) => echoSession e c := by
  rw [echoSession, echoLoop]
  split
  · rfl
  · rcases hread : readMessage e c with ⟨c', _ | _ | m⟩
    · rfl
    · rfl
    · have hless := (readMessage_message e hread).1
      have hsame := todo_echoReply e (.error (.protocol "invalid UTF-8")) c' m
      simp only
      split
      · rfl
      · rename_i c'' hreply
        rw [hreply] at hsame
        simp only at hsame
        exact echoLoop_congr e _ (by omega) (by omega)

lemma recvLoop_congr (failure : Except Error (Option String)) {n k : ℕ} {c : Connection}
    (hn : c.todo < n) (hk : c.todo < k) : recvLoop e failure n c = recvLoop e failure k c := by
  induction n generalizing k c with
  | zero => omega
  | succ n ih =>
      obtain ⟨k, rfl⟩ : ∃ j, k = j + 1 := ⟨k - 1, by omega⟩
      rw [recvLoop, recvLoop]
      rcases hread : readMessage e c with ⟨c', _ | _ | m⟩
      · rfl
      · rfl
      · have hless := (readMessage_message e hread).1
        simp only [ih (k := k) (c := c') (by omega) (by omega)]

/-- **`recv_text` is its loop.** -/
lemma recvText_eq (c : Connection) :
    recvText e c =
      match readMessage e c with
      | (c, .error err) => (c, .error err)
      | (c, .ok none) => (c, .ok none)
      | (c, .ok (some m)) =>
          if m.opcode == .text then (c, recvConvert (.error (.protocol "invalid UTF-8")) m.payload)
          else if m.opcode == .binary then
            (c, recvConvert (.error (.protocol "invalid UTF-8")) m.payload)
          else recvText e c := by
  rw [recvText, recvLoop]
  rcases hread : readMessage e c with ⟨c', _ | _ | m⟩
  · rfl
  · rfl
  · have hless := (readMessage_message e hread).1
    simp only [recvText, recvLoop_congr e _ (n := c.todo) (k := c'.todo + 1) hless
      (Nat.lt_succ_self _)]

/-- The answer to text that is not UTF-8 is never given. -/
lemma echoLoop_failure (failure failure' : Except Error Unit) (n : ℕ) (c : Connection) :
    echoLoop e failure n c = echoLoop e failure' n c := by
  induction n generalizing c with
  | zero => rfl
  | succ n ih =>
      rw [echoLoop, echoLoop]
      split
      · rfl
      · rcases hread : readMessage e c with ⟨c', _ | _ | m⟩
        · rfl
        · rfl
        · have hreply : echoReply e failure c' m = echoReply e failure' c' m := by
            cases hop : m.opcode with
            | text =>
                obtain ⟨s, hs, -⟩ := fromUtf8_of_valid ((readMessage_message e hread).2 hop)
                simp only [echoReply, hop, hs]
            | binary | close | ping | pong | continuation => simp only [echoReply, hop]
          simp only [hreply, ih]

lemma recvLoop_failure (failure failure' : Except Error (Option String)) (n : ℕ)
    (c : Connection) : recvLoop e failure n c = recvLoop e failure' n c := by
  induction n generalizing c with
  | zero => rfl
  | succ n ih =>
      rw [recvLoop, recvLoop]
      rcases hread : readMessage e c with ⟨c', _ | _ | m⟩
      · rfl
      · rfl
      · by_cases hop : m.opcode = .text
        · obtain ⟨s, hs, -⟩ := fromUtf8_of_valid ((readMessage_message e hread).2 hop)
          simp only [hop, recvConvert, hs, beq_self_eq_true, if_true]
        · simp only [hop, beq_iff_eq, if_false, ih]

end Text

end Connection

/-- **UTF-8 validation is exact, and text stays text.**  Both `is_valid_utf8` accept exactly the
encodings of lists of Unicode scalar values.  Hence the text messages that `read_message` returns
convert to strings of the same bytes, and it makes no difference what `echo_session` and
`recv_text` would answer to a text message that does not. -/
theorem utf8_validation_exact :
    (∀ host data, Cpp.isValidUtf8 host data = true ↔
      ∃ scalars : List Char, data = scalars.flatMap String.utf8EncodeChar) ∧
    (∀ data, isValidUtf8 data = true ↔
      ∃ scalars : List Char, data = scalars.flatMap String.utf8EncodeChar) ∧
    ∀ (e : Env) (c : Connection),
      (∀ c' m, c.readMessage e = (c', .ok (some m)) → m.opcode = .text →
        ∃ text, Connection.fromUtf8 m.payload = some text ∧ strBytes text = m.payload) ∧
      (∀ failure, Connection.echoLoop e failure (c.todo + 1) c = c.echoSession e) ∧
      ∀ failure, Connection.recvLoop e failure (c.todo + 1) c = c.recvText e := by
  refine ⟨fun host data => isValidUtf8_iff host data,
    fun data => isValidUtf8_iff .little data, fun e c => ⟨?_, ?_, ?_⟩⟩
  · intro c' m hread htext
    exact Connection.fromUtf8_of_valid ((Connection.readMessage_message e hread).2 htext)
  · intro failure
    exact Connection.echoLoop_failure e failure _ _ c
  · intro failure
    exact Connection.recvLoop_failure e failure _ _ c

end Wscpp.Rs
