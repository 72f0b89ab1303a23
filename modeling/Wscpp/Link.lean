import Wscpp.Receiver
import Wscpp.Emission
import Wscpp.Lib.Moves

/-!
# Two connections and what is between them

A client and a server, each of them wscpp or ws-rs, talk to each other over a byte stream in each
direction.  Both applications send, ping and close when they like, bytes arrive in whatever
portions, and frames are read when they are complete, in any order of these steps; pongs and the
echo of a CLOSE frame go into the same stream as what the application sends.

An `Endpoint` is a connection seen from outside, together with what it `Shows`: the message it is
putting together, the frames it has written, the bytes it has not read and what its reads have
brought about.  That either connection is one (`Cpp.endpoint`, `Rs.endpoint`) rests on
`readOneFrame_respond` and `turn_respond`.  The rest is about any two endpoints.

`link_delivers` is the result: no matter which libraries meet, what an application has been given is
a prefix of what the other one has sent, and all of it once nothing is on its way; no connection is
ever failed; and a connection that is closed closes the other.  It is about applications that
fragment their messages properly and send text as text, with no payload empty: an empty payload is
what neither receiver takes as it should (`Wscpp.Cpp.Receive`, `Wscpp.Rs.Session`).  The endpoints
have negotiated no extension, since what permessage-deflate makes of a message is not always what
was sent (`Wscpp.Deflate`), and what they write goes out.
-/

namespace Wscpp

open Words Moves

open Cpp (Reply)

/-! ## Frames that follow each other -/

/-- No frame begins as another one that is longer. -/
lemma WireFrame.encode_append_inj {f g : WireFrame} {x y : List UInt8}
    (h : f.encode ++ x = g.encode ++ y) : f.encode = g.encode ∧ x = y := by
  refine List.append_inj h ?_
  simp only [encode, encodeParts, List.cons_append, List.cons.injEq, List.append_assoc] at h
  obtain ⟨-, hsecond, hrest⟩ := h
  have hf := secondByte_bits f.key.isSome _ (LenForm.code_lt f.form_holds)
  have hg := secondByte_bits g.key.isSome _ (LenForm.code_lt g.form_holds)
  rw [hsecond] at hf
  have hkey : f.key.isSome = g.key.isSome := hf.1.symm.trans hg.1
  have hcode : f.form.code f.payload.length = g.form.code g.payload.length := hf.2.symm.trans hg.2
  have hform : f.form = g.form := LenForm.eq_of_code_eq f.form_holds g.form_holds hcode
  have hbytes := LenForm.length_bytes g.form f.payload.length g.payload.length
  rw [hform] at hrest hcode
  have hfirst := (List.append_inj hrest hbytes).1
  have hlen : f.payload.length = g.payload.length := by
    have hfholds := f.form_holds
    have hgholds := g.form_holds
    rw [hform] at hfholds
    revert hfirst hcode hfholds hgholds
    cases g.form with
    | short => exact fun hcode _ _ _ => hcode
    | ext16 =>
        intro _ hfirst hfholds hgholds
        have hfold := congrArg beFold hfirst
        rwa [LenForm.bytes, LenForm.bytes, beFold_beBytes (n := 2) hfholds,
          beFold_beBytes (n := 2) hgholds] at hfold
    | ext64 =>
        intro _ hfirst hfholds hgholds
        have hfold := congrArg beFold hfirst
        rwa [LenForm.bytes, LenForm.bytes, beFold_beBytes (n := 8) hfholds,
          beFold_beBytes (n := 8) hgholds] at hfold
  simp only [encode, encodeParts, List.length_cons, List.length_append, length_keyBytes,
    length_maskedWith, hkey, hform, hlen]

/-- The machine over frames and further frames. -/
lemma serve_append (a : Assembly) (fs gs : List WireFrame) :
    serve a (fs ++ gs) =
      match serve a fs with
      | (replies, none) => (replies, none)
      | (replies, some a') => (replies ++ (serve a' gs).1, (serve a' gs).2) := by
  induction fs generalizing a with
  | nil => rfl
  | cons f fs ih =>
      rw [List.cons_append, serve, serve]
      rcases respond a f.opcode f.fin f.payload with ⟨reply, _ | a'⟩
      · rfl
      · simp only [ih a']
        rcases serve a' fs with ⟨replies, _ | a''⟩
        · rfl
        · simp

lemma serve_concat {a a' : Assembly} {fs : List WireFrame} {replies : List Reply} (f : WireFrame)
    (h : serve a fs = (replies, some a')) :
    serve a (fs ++ [f]) = (replies ++ (respond a' f.opcode f.fin f.payload).1.toList,
      (respond a' f.opcode f.fin f.payload).2) := by
  rw [serve_append, h]
  simp only [serve]
  rcases respond a' f.opcode f.fin f.payload with ⟨reply, _ | a''⟩
  · rfl
  · simp

/-- What has been served of a sequence is the beginning of what the whole gives. -/
lemma serve_prefix (a : Assembly) (fs gs : List WireFrame) :
    (serve a fs).1 <+: (serve a (fs ++ gs)).1 := by
  rw [serve_append]
  rcases serve a fs with ⟨replies, _ | a'⟩
  · exact List.prefix_rfl
  · exact List.prefix_append _ _

/-! ## Endpoints -/

/-- The reply is a failure. -/
def Cpp.Reply.fails : Reply → Bool
  | failed _ _ => true
  | _ => false

/-- What is to be seen of a connection. -/
structure View where
  /-- The message that is being put together; nothing once the connection is closed. -/
  inside : Option Assembly
  /-- The frames written. -/
  frames : List WireFrame
  /-- The bytes that have come and are not read. -/
  unread : List UInt8
  /-- What the reads have brought about. -/
  replies : List Reply

/-- The frame is the piece, for a receiver of the role. -/
structure Carries (role : Role) (q : Piece) (f : WireFrame) : Prop where
  header : headerOk role false f = true
  opcode : f.opcode = q.op
  fin : f.fin = q.fin
  payload : f.payload = q.payload

/-- The frame that answers, as a piece. -/
def Cpp.Reply.piece? (r : Reply) : Option Piece :=
  r.frame?.map fun frame => ⟨frame.1, true, frame.2⟩

/-- A connection of the role that takes payloads of up to `limit` bytes, with its calls. -/
structure Endpoint (role : Role) (limit : ℕ) where
  State : Type
  Call : Type
  /-- The frame that a call asks for. -/
  piece : Call → Piece
  start : State
  call : State → Call → State
  /-- Bytes come in. -/
  arrive : State → Rs.Chunk → State
  /-- One frame is read and handled. -/
  read : State → State
  isOpen : State → Bool
  /-- The bytes written. -/
  wire : State → List UInt8
  /-- The bytes that have come and are not read. -/
  unread : State → List UInt8
  /-- The messages given to the application, each with its opcode. -/
  heard : State → List (List UInt8 × UInt8)
  /-- A read has ended with an error. -/
  failed : State → Bool
  Shows : State → View → Prop
  start_shows : Shows start ⟨some .idle, [], [], []⟩
  call_shows : ∀ {c : State} {a : Assembly} {frames : List WireFrame} {unread : List UInt8}
    {replies : List Reply} (q : Call), Shows c ⟨some a, frames, unread, replies⟩ →
    (piece q).payload.length ≤ limit → ∃ f, Carries role.peer (piece q) f ∧
      Shows (call c q) ⟨if (piece q).op = .close then none else some a, frames ++ [f], unread,
        replies⟩
  call_closed : ∀ {c : State} {frames : List WireFrame} {unread : List UInt8}
    {replies : List Reply} (q : Call), Shows c ⟨none, frames, unread, replies⟩ →
    (piece q).payload.length ≤ limit →
      ∃ more, Shows (call c q) ⟨none, frames ++ more, unread, replies⟩
  arrive_shows : ∀ {c : State} {v : View} (chunk : Rs.Chunk), Shows c v →
    Shows (arrive c chunk) { v with unread := v.unread ++ chunk.bytes }
  read_shows : ∀ {c : State} {a : Assembly} {frames : List WireFrame} {rest : List UInt8}
    {replies : List Reply} (f : WireFrame), Shows c ⟨some a, frames, f.encode ++ rest, replies⟩ →
    headerOk role false f = true → f.payload ≠ [] → f.payload.length ≤ limit →
    (∀ r ∈ (respond a f.opcode f.fin f.payload).1, r.fails = false) →
      ∃ answer, List.Forall₂ (Carries role.peer)
          ((respond a f.opcode f.fin f.payload).1.bind Reply.piece?).toList answer ∧
        Shows (read c) ⟨(respond a f.opcode f.fin f.payload).2, frames ++ answer, rest,
          replies ++ (respond a f.opcode f.fin f.payload).1.toList⟩
  read_closed : ∀ {c : State} {v : View}, Shows c v → v.inside = none → Shows (read c) v
  isOpen_eq : ∀ {c : State} {v : View}, Shows c v → isOpen c = v.inside.isSome
  wire_eq : ∀ {c : State} {v : View}, Shows c v → wire c = v.frames.flatMap WireFrame.encode
  unread_eq : ∀ {c : State} {v : View}, Shows c v → unread c = v.unread
  heard_eq : ∀ {c : State} {v : View}, Shows c v →
    heard c = (v.replies.filterMap Reply.message?).map fun m => (m.2, m.1.toU8)
  failed_eq : ∀ {c : State} {v : View}, Shows c v → failed c = v.replies.any Reply.fails

/-! ## The link -/

section Side

variable {role : Role} {limit : ℕ} {E : Endpoint role limit}

/-- One end of the link: the connection, the data frames that its application has sent while it was
open, and how many bytes it has taken of those the other end has written. -/
structure Side (E : Endpoint role limit) where
  state : E.State
  said : List Piece
  taken : ℕ

/-- What happens at one end. -/
inductive SideMove (E : Endpoint role limit)
  | call (q : E.Call)
  | arrive (n : ℕ)
  | read

/-- The messages that data frames make up. -/
def messagesOf (said : List Piece) : List (List UInt8 × UInt8) :=
  match Assembly.run .idle said with
  | none => []
  | some (_, ms) => ms.map fun m => (m.2, m.1.toU8)

namespace Side

/-- The end before anything has happened. -/
def start (E : Endpoint role limit) : Side E := ⟨E.start, [], 0⟩

/-- What comes next of the bytes that the other end has written. -/
def coming (wire : List UInt8) (x : Side E) : List UInt8 := wire.drop x.taken

/-- One move of an end, when the other has written `wire`. -/
def step (wire : List UInt8) (x : Side E) : SideMove E → Option (Side E)
  | .call q => some { x with
      state := E.call x.state q
      said :=
        if E.isOpen x.state && !(E.piece q).op.isControl then x.said ++ [E.piece q] else x.said }
  | .arrive n =>
      if h : (x.coming wire).take n ≠ [] ∧ ((x.coming wire).take n).length ≤ Rs.readChunk then
        some { x with
          state := E.arrive x.state ⟨(x.coming wire).take n, h.1, h.2⟩
          taken := x.taken + ((x.coming wire).take n).length }
      else none
  | .read => some { x with state := E.read x.state }

/-- The data frame continues or begins a message as it should, and completes no text that is not
text. -/
def FollowsOn (said : List Piece) (q : Piece) : Prop :=
  ∃ a ms a' m, Assembly.run .idle said = some (a, ms) ∧ a.step q = some (a', m) ∧
    ∀ text, m = some (.text, text) → isValidUtf8 .little text = true

/-- What an application may do: it sends what fits and, while the connection is open, what is not
empty and follows on; and a frame is read when all of it has come. -/
def Proper (x : Side E) : SideMove E → Prop
  | .call q => (E.piece q).payload.length ≤ limit ∧
      (E.isOpen x.state = true → (E.piece q).payload ≠ [] ∧
        ((E.piece q).op.isControl = false → FollowsOn x.said (E.piece q)))
  | .arrive _ => True
  | .read => E.isOpen x.state = true → ∃ f : WireFrame, f.encode <+: E.unread x.state

end Side

end Side

variable {limit : ℕ}

/-- The two ends. -/
structure Link (A : Endpoint .client limit) (B : Endpoint .server limit) where
  client : Side A
  server : Side B

/-- What happens on the link. -/
inductive LinkMove (A : Endpoint .client limit) (B : Endpoint .server limit)
  | client (move : SideMove A)
  | server (move : SideMove B)

namespace Link

variable {A : Endpoint .client limit} {B : Endpoint .server limit}

/-- The link before anything has happened. -/
def start (A : Endpoint .client limit) (B : Endpoint .server limit) : Link A B :=
  ⟨.start A, .start B⟩

/-- One move. -/
def step (s : Link A B) : LinkMove A B → Option (Link A B)
  | .client move => (s.client.step (B.wire s.server.state) move).map fun x => { s with client := x }
  | .server move => (s.server.step (A.wire s.client.state) move).map fun x => { s with server := x }

/-- The applications behave. -/
def Proper (s : Link A B) : LinkMove A B → Prop
  | .client move => s.client.Proper move
  | .server move => s.server.Proper move

end Link

/-! ## One direction -/

/-- One data frame more. -/
lemma Assembly.run_concat {a b b' : Assembly} {ps : List Piece} {ms : List (Opcode × List UInt8)}
    {q : Piece} {m : Option (Opcode × List UInt8)} (hrun : run a ps = some (b, ms))
    (hstep : b.step q = some (b', m)) : run a (ps ++ [q]) = some (b', ms ++ m.toList) := by
  induction ps generalizing a ms with
  | nil =>
      obtain ⟨rfl, rfl⟩ := Prod.mk.inj (Option.some.inj hrun)
      simp [run, hstep]
  | cons p ps ih =>
      obtain ⟨a', m', ms', hp, hps, rfl⟩ := run_cons_eq_some hrun
      rw [List.cons_append, run, hp]
      simp [ih hps]

/-- What goes from one end to the other.  The sender has written the frames `spoken`, and others
only behind a CLOSE frame; the receiver has read the first of them. -/
structure Carried (peer : Role) (limit : ℕ) (said : List Piece) (v : View) (taken : ℕ) (w : View)
    (spoken junk consumed rest : List WireFrame) : Prop where
  frames : v.frames = spoken ++ junk
  split : spoken = consumed ++ rest
  tidy : v.inside.isSome = true → junk = []
  takeable : ∀ f ∈ spoken, headerOk peer false f = true ∧ f.payload ≠ [] ∧
    f.payload.length ≤ limit
  unfailing : ∀ r ∈ (serve .idle spoken).1, r.fails = false
  /-- The frames say what the application has said. -/
  meaning : ∃ a ms, Assembly.run .idle said = some (a, ms) ∧
    (serve .idle spoken).1.filterMap Reply.message? = ms ∧
    (serve .idle spoken).2 = if v.inside.isSome = true then some a else none
  taken_le : taken ≤ (v.frames.flatMap WireFrame.encode).length
  /-- What the receiver has not read, and what has not come. -/
  coming : w.unread ++ (v.frames.flatMap WireFrame.encode).drop taken =
    (rest ++ junk).flatMap WireFrame.encode
  replies : w.replies = (serve .idle consumed).1
  inside : ∀ a, w.inside = some a → (serve .idle consumed).2 = some a

/-- The same, whichever the frames are. -/
def Carrying (peer : Role) (limit : ℕ) (said : List Piece) (v : View) (taken : ℕ) (w : View) :
    Prop :=
  ∃ spoken junk consumed rest, Carried peer limit said v taken w spoken junk consumed rest

section Direction

variable {peer : Role} {said : List Piece} {v v' w w' : View} {taken : ℕ}
  {spoken junk consumed rest : List WireFrame}

/-- Nothing has been said. -/
lemma carried_start (peer : Role) (limit : ℕ) :
    Carried peer limit [] ⟨some .idle, [], [], []⟩ 0 ⟨some .idle, [], [], []⟩ [] [] [] [] where
  frames := rfl
  split := rfl
  tidy _ := rfl
  takeable := by simp
  unfailing := by simp [serve]
  meaning := ⟨.idle, [], rfl, rfl, rfl⟩
  taken_le := Nat.le_refl _
  coming := rfl
  replies := rfl
  inside _ h := h

/-- Of the sender its frames count and whether it is open, of the receiver what concerns reading. -/
lemma Carried.congr (h : Carried peer limit said v taken w spoken junk consumed rest)
    (hframes : v'.frames = v.frames) (hopen : v'.inside.isSome = v.inside.isSome)
    (hunread : w'.unread = w.unread) (hreplies : w'.replies = w.replies)
    (hinside : ∀ a, w'.inside = some a → w.inside = some a) :
    Carrying peer limit said v' taken w' :=
  ⟨spoken, junk, consumed, rest, hframes.trans h.frames, h.split,
    fun hsome => h.tidy (hopen ▸ hsome), h.takeable, h.unfailing, hopen ▸ h.meaning,
    hframes ▸ h.taken_le, by rw [hunread, hframes, h.coming], hreplies.trans h.replies,
    fun a ha => h.inside a (hinside a ha)⟩

/-- Bytes written behind others leave those where they are. -/
lemma Carried.coming_append (h : Carried peer limit said v taken w spoken junk consumed rest)
    (more : List WireFrame) :
    taken ≤ ((v.frames ++ more).flatMap WireFrame.encode).length ∧
      w.unread ++ ((v.frames ++ more).flatMap WireFrame.encode).drop taken =
        (rest ++ junk ++ more).flatMap WireFrame.encode := by
  have hle := h.taken_le
  constructor
  · rw [List.flatMap_append, List.length_append]
    omega
  · rw [List.flatMap_append, List.drop_append_of_le_length hle, ← List.append_assoc, h.coming,
      ← List.flatMap_append]

/-- A data frame that continues or begins a message, and completes no bad text. -/
lemma respond_data {a a' : Assembly} {q : Piece} {m : Option (Opcode × List UInt8)}
    (hctl : q.op.isControl = false) (hstep : a.step q = some (a', m))
    (hvalid : ∀ text, m = some (.text, text) → isValidUtf8 .little text = true) :
    respond a q.op q.fin q.payload = (m.map fun m => .message m.1 m.2, some a') := by
  have hstep' : a.step ⟨q.op, q.fin, q.payload⟩ = some (a', m) := hstep
  unfold respond
  split
  · rename_i hop
    simp [hop, Opcode.isControl] at hctl
  · rename_i hop
    simp [hop, Opcode.isControl] at hctl
  · rename_i hop
    simp [hop, Opcode.isControl] at hctl
  · rw [hstep']
    cases m with
    | none => rfl
    | some m =>
        obtain ⟨op, bytes⟩ := m
        simp only [Option.map_some]
        rw [if_neg]
        simp only [Bool.and_eq_true, beq_iff_eq, Bool.not_eq_true', not_and, Bool.not_eq_false]
        rintro rfl
        exact hvalid bytes rfl

/-- What a frame that follows on brings about at the other end. -/
lemma respond_said {a : Assembly} {ms : List (Opcode × List UInt8)} {q : Piece}
    (hrun : Assembly.run .idle said = some (a, ms))
    (hfollows : q.op.isControl = false → Side.FollowsOn said q) :
    (∀ r ∈ (respond a q.op q.fin q.payload).1, r.fails = false) ∧
      ∃ a' ms', Assembly.run .idle (if q.op.isControl then said else said ++ [q]) =
          some (a', ms ++ ms') ∧
        (respond a q.op q.fin q.payload).1.toList.filterMap Reply.message? = ms' ∧
        (respond a q.op q.fin q.payload).2 = if (q.op != .close) = true then some a' else none := by
  cases hctl : q.op.isControl with
  | true =>
      refine ⟨?_, a, [], by simpa using hrun, ?_⟩
      all_goals cases hop : q.op <;> simp [hop, Opcode.isControl] at hctl
      all_goals simp [respond, Reply.fails, Reply.message?]
  | false =>
      obtain ⟨b, ms₀, a', m, hrun₀, hstep, hvalid⟩ := hfollows hctl
      obtain ⟨rfl, rfl⟩ := Prod.mk.inj (Option.some.inj (hrun.symm.trans hrun₀))
      have hconcat := Assembly.run_concat hrun hstep
      have hopen : (q.op != .close) = true := by
        cases hop : q.op <;> simp [hop, Opcode.isControl] at hctl ⊢
      have hrespond := respond_data hctl hstep hvalid
      rw [hrespond, hopen]
      refine ⟨?_, a', m.toList, by simpa using hconcat, ?_, rfl⟩
      · intro r hr
        obtain ⟨x, -, rfl⟩ := Option.map_eq_some_iff.mp hr
        rfl
      · cases m <;> rfl

/-- **A frame is written** by a connection that is open. -/
lemma Carried.write (h : Carried peer limit said v taken w spoken junk consumed rest)
    {q : Piece} {f : WireFrame} (hv : v.inside.isSome = true) (hf : Carries peer q f)
    (hne : q.payload ≠ []) (hfits : q.payload.length ≤ limit)
    (hfollows : q.op.isControl = false → Side.FollowsOn said q)
    (hframes : v'.frames = v.frames ++ [f]) (hopen : v'.inside.isSome = (q.op != .close)) :
    Carrying peer limit (if q.op.isControl then said else said ++ [q]) v' taken w := by
  obtain ⟨a, ms, hrun, hms, hserve⟩ := h.meaning
  rw [if_pos hv] at hserve
  have hjunk := h.tidy hv
  subst hjunk
  obtain ⟨htaken, hcoming⟩ := h.coming_append [f]
  have hconcat := serve_concat f (Prod.ext rfl hserve : serve .idle spoken = (_, some a))
  rw [hf.opcode, hf.fin, hf.payload] at hconcat
  obtain ⟨hfine, a', ms', hrun', hms', hnext⟩ := respond_said hrun hfollows
  refine ⟨spoken ++ [f], [], consumed, rest ++ [f], by rw [hframes, h.frames]; simp,
    by rw [h.split]; simp, fun _ => rfl, ?_, ?_,
    ⟨a', ms ++ ms', hrun', ?_, ?_⟩, ?_, ?_, h.replies, h.inside⟩
  · intro g hg
    rcases List.mem_append.mp hg with hg | hg
    · exact h.takeable g hg
    · rw [List.mem_singleton] at hg
      subst hg
      rw [hf.payload]
      exact ⟨hf.header, hne, hfits⟩
  · rw [hconcat]
    intro r hr
    rcases List.mem_append.mp hr with hr | hr
    · exact h.unfailing r hr
    · exact hfine r (Option.mem_toList.mp hr)
  · rw [hconcat, List.filterMap_append, hms, hms']
  · rw [hconcat, hopen, hnext]
  · rw [hframes]
    exact htaken
  · rw [hframes, hcoming]
    simp

/-- A connection that is closed writes. -/
lemma Carried.write_closed (h : Carried peer limit said v taken w spoken junk consumed rest)
    (hv : v.inside = none) (more : List WireFrame) (hframes : v'.frames = v.frames ++ more)
    (hv' : v'.inside = none) :
    Carrying peer limit said v' taken w := by
  obtain ⟨htaken, hcoming⟩ := h.coming_append more
  refine ⟨spoken, junk ++ more, consumed, rest, by rw [hframes, h.frames, List.append_assoc],
    h.split, by simp [hv'], h.takeable, h.unfailing, ?_, by rw [hframes]; exact htaken,
    by rw [hframes, hcoming, List.append_assoc], h.replies, h.inside⟩
  have hmeaning := h.meaning
  rw [hv] at hmeaning
  rw [hv']
  exact hmeaning

/-- Bytes come. -/
lemma Carried.arrive (h : Carried peer limit said v taken w spoken junk consumed rest) (n : ℕ)
    {bytes : List UInt8}
    (hbytes : ((v.frames.flatMap WireFrame.encode).drop taken).take n = bytes)
    (hunread : w'.unread = w.unread ++ bytes) (hreplies : w'.replies = w.replies)
    (hinside : w'.inside = w.inside) :
    Carrying peer limit said v (taken + bytes.length) w' := by
  have hle := h.taken_le
  have hlen : bytes.length ≤ (v.frames.flatMap WireFrame.encode).length - taken := by
    rw [← hbytes, List.length_take, List.length_drop]
    omega
  refine ⟨spoken, junk, consumed, rest, h.frames, h.split, h.tidy, h.takeable, h.unfailing,
    h.meaning, by omega, ?_,
    hreplies.trans h.replies, fun a ha => h.inside a (hinside ▸ ha)⟩
  have hdrop : bytes ++ (v.frames.flatMap WireFrame.encode).drop (taken + bytes.length) =
      (v.frames.flatMap WireFrame.encode).drop taken := by
    have hsplit := List.take_append_drop bytes.length
      ((v.frames.flatMap WireFrame.encode).drop taken)
    have htake : ((v.frames.flatMap WireFrame.encode).drop taken).take bytes.length = bytes :=
      (List.prefix_iff_eq_take.mp (hbytes ▸ List.take_prefix n _)).symm
    rw [List.drop_drop, htake] at hsplit
    exact hsplit
  rw [hunread, List.append_assoc, hdrop, h.coming]

/-- **A frame is read**: it is the next one of those the sender has written, and does not fail. -/
lemma Carried.next (h : Carried peer limit said v taken w spoken junk consumed rest) {a : Assembly}
    (hw : w.inside = some a) {g : WireFrame} (hg : g.encode <+: w.unread) :
    ∃ f rest' unread', rest = f :: rest' ∧ w.unread = f.encode ++ unread' ∧
      (∀ r ∈ (respond a f.opcode f.fin f.payload).1, r.fails = false) ∧
      ∀ w' : View, w'.inside = (respond a f.opcode f.fin f.payload).2 → w'.unread = unread' →
        w'.replies = w.replies ++ (respond a f.opcode f.fin f.payload).1.toList →
          Carrying peer limit said v taken w' := by
  obtain ⟨tail, htail⟩ := hg
  have hserve := h.inside a hw
  have hcoming := h.coming
  rcases rest with _ | ⟨f, rest'⟩
  · -- all that was spoken has been read, so there is nothing that could be
    exfalso
    have hspoken : spoken = consumed := by rw [h.split, List.append_nil]
    obtain ⟨b, ms, -, -, hend⟩ := h.meaning
    rw [hspoken, hserve] at hend
    have hopen : v.inside.isSome = true := by
      by_contra hclosed
      simp [hclosed] at hend
    rw [h.tidy hopen, ← htail] at hcoming
    simp [g.encode_ne_nil] at hcoming
  · rw [← htail, List.cons_append, List.flatMap_cons, List.append_assoc] at hcoming
    obtain ⟨henc, hrest⟩ := WireFrame.encode_append_inj hcoming
    have hconcat := serve_concat f (Prod.ext rfl hserve : serve .idle consumed = (_, some a))
    refine ⟨f, rest', tail, rfl, by rw [← htail, henc], ?_, ?_⟩
    · intro r hr
      apply h.unfailing
      have hserved := serve_prefix .idle (consumed ++ [f]) rest'
      rw [List.append_assoc, List.singleton_append, ← h.split, hconcat] at hserved
      exact hserved.subset (List.mem_append_right _ (Option.mem_toList.mpr hr))
    · intro w' hinside hunread hreplies
      refine ⟨spoken, junk, consumed ++ [f], rest', h.frames, by rw [h.split]; simp, h.tidy,
        h.takeable, h.unfailing, h.meaning, h.taken_le, by rw [hunread, hrest], ?_, ?_⟩
      · rw [hreplies, hconcat, h.replies]
      · intro b hb
        rw [hconcat, ← hinside, hb]

end Direction

/-! ## Both directions -/

section Ends

variable {role : Role} {E : Endpoint role limit} {x x' : Side E} {wire : List UInt8} {v w : View}
  {said : List Piece} {taken : ℕ}

/-- One end and the other one as it is seen: what goes there and what comes from there. -/
structure Paired (role : Role) (limit : ℕ) (said : List Piece) (taken : ℕ) (v : View)
    (said' : List Piece) (taken' : ℕ) (w : View) : Prop where
  out : Carrying role.peer limit said v taken' w
  back : Carrying role limit said' w taken v

/-- What a frame brings about that does not fail the connection. -/
lemma respond_fine {a : Assembly} {op : Opcode} {fin : Bool} {payload : List UInt8}
    (hfine : ∀ r ∈ (respond a op fin payload).1, r.fails = false) :
    (∃ a', respond a op fin payload = (none, some a')) ∨
      (∃ a', respond a op fin payload = (some (.pong payload), some a')) ∨
      (∃ mop bs a', respond a op fin payload = (some (.message mop bs), some a')) ∨
      (op = .close ∧ ∃ reason, respond a op fin payload =
        (some (.closed (Cpp.Connection.closeStatus payload) reason), none)) := by
  cases op with
  | ping => exact .inr (.inl ⟨a, rfl⟩)
  | pong => exact .inl ⟨a, rfl⟩
  | close => exact .inr (.inr (.inr ⟨rfl, _, rfl⟩))
  | _ =>
      simp only [respond] at hfine ⊢
      split at hfine
      · simp [Reply.fails] at hfine
      · exact .inl ⟨_, rfl⟩
      · split_ifs at hfine ⊢
        · simp [Reply.fails] at hfine
        · exact .inr (.inr (.inl ⟨_, _, _, rfl⟩))

/-- What answers a frame is a control frame, and a CLOSE frame exactly when it ends the
connection. -/
lemma respond_piece (hlimit : 2 ≤ limit) (a : Assembly) (op : Opcode) (fin : Bool)
    {payload : List UInt8} (hne : payload ≠ []) (hfits : payload.length ≤ limit)
    (hfine : ∀ r ∈ (respond a op fin payload).1, r.fails = false) :
    match (respond a op fin payload).1.bind Reply.piece? with
    | none => (respond a op fin payload).2.isSome = true
    | some q => q.op.isControl = true ∧ q.payload ≠ [] ∧ q.payload.length ≤ limit ∧
        (respond a op fin payload).2.isSome = (q.op != .close) := by
  rcases respond_fine hfine with ⟨a', hr⟩ | ⟨a', hr⟩ | ⟨mop, bs, a', hr⟩ | ⟨-, reason, hr⟩
  · rw [hr]
    rfl
  · rw [hr]
    exact ⟨rfl, hne, hfits, rfl⟩
  · rw [hr]
    rfl
  · rw [hr]
    exact ⟨rfl, by simp [closeCodeBytes], hlimit, rfl⟩

section Moves

variable (hlimit : 2 ≤ limit) (hshows : E.Shows x.state v)
  (hpaired : Paired role limit x.said x.taken v said taken w)

include hshows hpaired

/-- **The application calls.** -/
lemma Endpoint.call_paired {q : E.Call} (hproper : x.Proper (.call q))
    (hstep : x.step wire (.call q) = some x') :
    ∃ v', E.Shows x'.state v' ∧ Paired role limit x'.said x'.taken v' said taken w := by
  obtain ⟨⟨_, _, _, _, hout⟩, _, _, _, _, hback⟩ := hpaired
  have hopen := E.isOpen_eq hshows
  obtain rfl := Option.some.inj hstep
  obtain ⟨inside, frames, unread, replies⟩ := v
  cases inside with
  | none =>
      -- a call on a closed connection may write, but nobody takes it
      obtain ⟨more, hmore⟩ := E.call_closed q hshows hproper.1
      have hsaid : (if E.isOpen x.state && !(E.piece q).op.isControl then
          x.said ++ [E.piece q] else x.said) = x.said := by
        rw [hopen]
        rfl
      refine ⟨_, hmore, ?_, hback.congr rfl rfl rfl rfl fun _ h => h⟩
      simp only [hsaid]
      exact hout.write_closed rfl more rfl rfl
  | some a =>
      obtain ⟨hfits, hproper⟩ := hproper
      obtain ⟨hne, hfollows⟩ := hproper hopen
      -- a call on an open one says one piece more
      obtain ⟨f, hf, hnext⟩ := E.call_shows q hshows hfits
      have hsaid : (if E.isOpen x.state && !(E.piece q).op.isControl then
          x.said ++ [E.piece q] else x.said) =
          if (E.piece q).op.isControl then x.said else x.said ++ [E.piece q] := by
        rw [hopen]
        cases (E.piece q).op.isControl <;> rfl
      refine ⟨_, hnext, ?_, hback.congr rfl rfl rfl rfl fun b hb => ?_⟩
      · simp only [hsaid]
        refine hout.write rfl hf hne hfits hfollows rfl ?_
        by_cases hclose : (E.piece q).op = .close
        · simp [hclose]
        · simp [hclose]
      · by_cases hclose : (E.piece q).op = .close
        · simp [hclose] at hb
        · simpa [hclose] using hb

/-- **Bytes come.** -/
lemma Endpoint.arrive_paired (hwire : wire = w.frames.flatMap WireFrame.encode) {n : ℕ}
    (hstep : x.step wire (.arrive n) = some x') :
    ∃ v', E.Shows x'.state v' ∧ Paired role limit x'.said x'.taken v' said taken w := by
  obtain ⟨⟨_, _, _, _, hout⟩, _, _, _, _, hback⟩ := hpaired
  simp only [Side.step] at hstep
  split_ifs at hstep with hchunk
  obtain rfl := Option.some.inj hstep
  refine ⟨_, E.arrive_shows _ hshows, hout.congr rfl rfl rfl rfl fun _ h => h,
    hback.arrive n ?_ rfl rfl rfl⟩
  rw [Side.coming, hwire]

include hlimit in
/-- **A frame is read.** -/
lemma Endpoint.read_paired (hproper : x.Proper .read) (hstep : x.step wire .read = some x') :
    ∃ v', E.Shows x'.state v' ∧ Paired role limit x'.said x'.taken v' said taken w := by
  obtain ⟨⟨_, _, _, _, hout⟩, _, _, _, _, hback⟩ := hpaired
  have hopen := E.isOpen_eq hshows
  obtain rfl := Option.some.inj hstep
  obtain ⟨inside, frames, unread, replies⟩ := v
  cases inside with
  | none => exact ⟨_, E.read_closed hshows rfl, ⟨_, _, _, _, hout⟩, ⟨_, _, _, _, hback⟩⟩
  | some a =>
      obtain ⟨g, hg⟩ := hproper hopen
      rw [E.unread_eq hshows] at hg
      obtain ⟨f, rest', unread', rfl, hunread, hfine, hnext⟩ := hback.next rfl hg
      simp only at hunread
      subst hunread
      obtain ⟨hheader, hne, hfits⟩ := hback.takeable f (by
        rw [hback.split]
        exact List.mem_append_right _ List.mem_cons_self)
      obtain ⟨answer, hanswer, hread⟩ := E.read_shows f hshows hheader hne hfits hfine
      have hpiece := respond_piece hlimit a f.opcode f.fin hne hfits hfine
      refine ⟨_, hread, ?_, hnext _ rfl rfl rfl⟩
      -- the answer, if there is one, goes the other way
      cases hq : (respond a f.opcode f.fin f.payload).1.bind Reply.piece? with
      | none =>
          rw [hq] at hpiece hanswer
          obtain rfl : answer = [] := by simpa using hanswer
          exact hout.congr (by simp) hpiece rfl rfl fun _ h => h
      | some q =>
          rw [hq] at hpiece hanswer
          obtain ⟨hctl, hqne, hqfits, hend⟩ := hpiece
          obtain ⟨g', _, hg', hnil, rfl⟩ := List.forall₂_cons_left_iff.mp hanswer
          obtain rfl := List.forall₂_nil_left_iff.mp hnil
          have hsaid : x.said = if q.op.isControl then x.said else x.said ++ [q] :=
            (if_pos hctl).symm
          rw [hsaid]
          exact hout.write rfl hg' hqne hqfits (fun hdata => by simp [hctl] at hdata) rfl hend

include hlimit in
/-- **One move of an end.** -/
lemma Endpoint.step_paired (hwire : wire = w.frames.flatMap WireFrame.encode) {move : SideMove E}
    (hproper : x.Proper move) (hstep : x.step wire move = some x') :
    ∃ v', E.Shows x'.state v' ∧ Paired role limit x'.said x'.taken v' said taken w := by
  cases move with
  | call q => exact E.call_paired hshows hpaired hproper hstep
  | arrive n => exact E.arrive_paired hshows hpaired hwire hstep
  | read => exact E.read_paired hlimit hshows hpaired hproper hstep

end Moves

end Ends

/-- What an application has been given of what the other one has said: a beginning of it, without a
failure; and all of it when nothing is on its way, and then the end as well. -/
structure Delivers {role role' : Role} {E : Endpoint role limit} {F : Endpoint role' limit}
    (x : Side E) (y : Side F) : Prop where
  heard : F.heard y.state <+: messagesOf x.said
  fine : F.failed y.state = false
  all : y.coming (E.wire x.state) = [] → F.unread y.state = [] →
    F.heard y.state = messagesOf x.said ∧ (E.isOpen x.state = false → F.isOpen y.state = false)

lemma Carrying.delivers {role role' : Role} {E : Endpoint role limit} {F : Endpoint role' limit}
    {x : Side E} {y : Side F} {v w : View} (hx : E.Shows x.state v) (hy : F.Shows y.state w)
    (h : Carrying role' limit x.said v y.taken w) : Delivers x y := by
  obtain ⟨spoken, junk, consumed, rest, h⟩ := h
  obtain ⟨a, ms, hrun, hms, hend⟩ := h.meaning
  have hsaid : messagesOf x.said = ms.map fun m => (m.2, m.1.toU8) := by rw [messagesOf, hrun]
  have hserved := serve_prefix .idle consumed rest
  rw [← h.split] at hserved
  refine ⟨?_, ?_, fun hcoming hunread => ?_⟩
  · rw [F.heard_eq hy, hsaid, h.replies, ← hms]
    exact (hserved.filterMap _).map _
  · rw [F.failed_eq hy, h.replies, List.any_eq_false]
    intro r hr
    simp [h.unfailing r (hserved.subset hr)]
  · rw [Side.coming, E.wire_eq hx] at hcoming
    rw [F.unread_eq hy] at hunread
    have hnothing := h.coming
    rw [hunread, hcoming, List.nil_append, List.flatMap_append] at hnothing
    have hrest : rest = [] := by
      cases rest with
      | nil => rfl
      | cons f rest => simp [f.encode_ne_nil] at hnothing
    have hspoken : spoken = consumed := by rw [h.split, hrest, List.append_nil]
    refine ⟨by rw [F.heard_eq hy, hsaid, h.replies, ← hms, hspoken], fun hclosed => ?_⟩
    rw [E.isOpen_eq hx] at hclosed
    rw [F.isOpen_eq hy]
    rw [hclosed, hspoken] at hend
    rcases hw : w.inside with _ | b
    · rfl
    · rw [h.inside b hw] at hend
      simp at hend

namespace Link

variable {A : Endpoint .client limit} {B : Endpoint .server limit} {s s' : Link A B}

/-- What holds on the link. -/
def Sound (s : Link A B) : Prop :=
  ∃ v w, A.Shows s.client.state v ∧ B.Shows s.server.state w ∧
    Paired .client limit s.client.said s.client.taken v s.server.said s.server.taken w

lemma sound_start (A : Endpoint .client limit) (B : Endpoint .server limit) : (start A B).Sound :=
  ⟨_, _, A.start_shows, B.start_shows, ⟨_, _, _, _, carried_start _ _⟩,
    ⟨_, _, _, _, carried_start _ _⟩⟩

/-- **One move.** -/
lemma Sound.step (hlimit : 2 ≤ limit) (h : s.Sound) {move : LinkMove A B} (hproper : s.Proper move)
    (hstep : s.step move = some s') : s'.Sound := by
  obtain ⟨v, w, hv, hw, hpaired⟩ := h
  cases move with
  | client move =>
      obtain ⟨x, hx, rfl⟩ := Option.map_eq_some_iff.mp hstep
      obtain ⟨v', hv', hpaired'⟩ :=
        A.step_paired hlimit hv hpaired (B.wire_eq hw) hproper hx
      exact ⟨v', w, hv', hw, hpaired'⟩
  | server move =>
      obtain ⟨y, hy, rfl⟩ := Option.map_eq_some_iff.mp hstep
      obtain ⟨w', hw', hpaired'⟩ :=
        B.step_paired hlimit hw ⟨hpaired.back, hpaired.out⟩ (A.wire_eq hv) hproper hy
      exact ⟨v, w', hv, hw', hpaired'.back, hpaired'.out⟩

/-- **Every run of the link.** -/
lemma delivers_of_runs (hlimit : 2 ≤ limit) (hrun : Runs step Proper (start A B) s) :
    Delivers s.client s.server ∧ Delivers s.server s.client := by
  have hsound : s.Sound :=
    hrun.invariant (sound_start A B) fun _ _ _ h hproper hstep => h.step hlimit hproper hstep
  obtain ⟨v, w, hv, hw, hpaired⟩ := hsound
  exact ⟨hpaired.out.delivers hv hw, hpaired.back.delivers hw hv⟩

end Link

end Wscpp
