import Wscpp.Rs.Duplex
import Wscpp.Rs.Delivery

/-!
# One reader among the senders

`read_message` gives up its mutexes between one frame and the next, and whoever else uses the
connection gets in between: senders, the pings of another task, a `close`.  What the reader is given
does not depend on any of this, as long as the calls of `read_message` do not overlap.

The bytes that have arrived say what it is to be.  `Took` has the frames that the parser finds in
them, and `Reassembly.step` what each of them does to the message in progress.  Between the moment
the parser has a frame and the moment its message is handed over, the reader has something in hand
(`hand`); `settle` says what is left to happen with it, and `Followed` is the equation between the
two sides, kept by every step of every task.

Calls of `read_message` that overlap take turns at the parser and then race for `fragment`, so that
the fragments of a message may come there in the wrong order.
-/

namespace Wscpp.Rs.Threads

open Moves Locks Incremental Reassembly

/-! ## The frames in a stream -/

/-- The frame that the parser has completed, unless `validate_incoming` refuses it. -/
def accepted (c : Connection) (p : Parser) : List Frame :=
  match Connection.verdict c.role c.permessageDeflate p.takeFrame.1 with
  | .ok (some frame) => [frame]
  | _ => []

lemma accepted_cases (c : Connection) (p : Parser) :
    accepted c p = [] ∨ ∃ frame, accepted c p = [frame] := by
  rw [accepted]
  split
  · exact .inr ⟨_, rfl⟩
  · exact .inl rfl

/-- Calls of the parser, one behind the other, that take these frames out of the stream. -/
inductive Took (e : Env) (c : Connection) (p : Parser) (bytes : List UInt8) :
    List Frame → Parser → List UInt8 → Prop
  | start : Took e c p bytes [] p bytes
  | frame {frames : List Frame} {q q' : Parser} {rest rest' : List UInt8}
      (h : Took e c p bytes frames q rest)
      (hparse : outcome (Parser.sub e.bits) q rest = (q', some .complete, rest')) :
      Took e c p bytes (frames ++ accepted c q') q'.takeFrame.2 rest'
  | error {frames : List Frame} {q q' : Parser} {rest rest' : List UInt8}
      (h : Took e c p bytes frames q rest)
      (hparse : outcome (Parser.sub e.bits) q rest = (q', some .error, rest')) :
      Took e c p bytes frames q' rest'

lemma Took.append {e : Env} {c : Connection} {p q : Parser} {bytes rest : List UInt8}
    {frames : List Frame} (h : Took e c p bytes frames q rest) (more : List UInt8) :
    Took e c p (bytes ++ more) frames q (rest ++ more) := by
  induction h with
  | start => exact .start
  | frame _ hparse ih => exact .frame ih (outcome_append_of_some (Parser.splits e.bits) hparse more)
  | error _ hparse ih => exact .error ih (outcome_append_of_some (Parser.splits e.bits) hparse more)

/-! ## What the frames make -/

/-- Decompression, for a connection that has the extension. -/
def inflate (e : Env) (c : Connection) (payload : List UInt8) : Option (List UInt8) :=
  if c.permessageDeflate then decompressMessage e.zlib payload else none

/-- The message of a result. -/
def message : Except Error (Option Message) → List Message
  | .ok (some m) => [m]
  | _ => []

/-- A message in progress, and the messages that are complete. -/
abbrev Progress := Option Group × List Message

/-- What a frame has done, behind what was complete before. -/
def behind (done : List Message) (r : Option Group × Option (Except Error (Option Message))) :
    Progress :=
  (r.1, done ++ r.2.toList.flatMap message)

/-- One more frame. -/
def take (e : Env) (c : Connection) (x : Progress) (f : Frame) : Progress :=
  behind x.2 (step (inflate e c) x.1 f)

/-- What the frames make of the message in progress. -/
def reassemble (e : Env) (c : Connection) (frames : List Frame) : Progress :=
  frames.foldl (take e c) (c.fragment.group, [])

/-! ## What the reader has in hand -/

namespace Action

/-- The action is about a frame or a message that has been read. -/
def inHand : Action → Bool
  | handle _ | continuation _ _ | data _ _ | deliver _ _ _ => true
  | _ => false

/-- The action belongs to `read_message` alone. -/
def reads : Action → Bool
  | testOpen | parse | read => true
  | a => a.inHand

/-- What is left to happen with what is in hand. -/
def settle (e : Env) (c : Connection) (x : Progress) : Action → Progress
  | handle f => take e c x f
  | continuation payload fin =>
      match x.1 with
      | none => x
      | some g =>
          behind x.2 (Group.extend (inflate e c) ⟨g.opcode, g.compressed, g.payload ++ payload⟩ fin)
  | data opcode f =>
      behind x.2 (Reassembly.start (inflate e c) x.1 ⟨opcode, f.header.rsv1, f.payload⟩
        f.header.fin)
  | deliver opcode payload compressed =>
      (x.1, x.2 ++ message (Group.complete (inflate e c) ⟨opcode, compressed, payload⟩))
  | _ => x

/-- What `deliver_message` hands to the caller of `read_message`. -/
def given (e : Env) (c : Connection) : Action → List Message
  | deliver opcode payload compressed =>
      (Connection.deliverMessage e c opcode payload compressed).2.toOption.toList
  | _ => []

lemma given_of_quiet {e : Env} {c : Connection} {a : Action} (h : a.reads = false) :
    a.given e c = [] := by
  cases a with
  | deliver opcode payload compressed => simp [reads, inHand] at h
  | _ => rfl

end Action

/-- What a task has in hand: the next thing it does but for taking and releasing mutexes. -/
def hand : Code → Option Action
  | [] => none
  | .lock _ :: rest => hand rest
  | .unlock _ :: rest => hand rest
  | .act a :: _ => if a.inHand then some a else none

/-- Nothing is in hand, now or later. -/
def Clear (code : Code) : Prop := ∀ a, .act a ∈ code → a.inHand = false

/-- The program does not read. -/
def Quiet (code : Code) : Prop := ∀ a, .act a ∈ code → a.reads = false

/-- Nothing is in hand behind the next action. -/
def Tidy : Code → Prop
  | [] => True
  | .lock _ :: rest => Tidy rest
  | .unlock _ :: rest => Tidy rest
  | .act _ :: rest => Clear rest

section Places

variable {code rest : Code} {a : Action}

lemma Action.inHand_of_reads (h : a.reads = false) : a.inHand = false := by
  cases a with
  | testOpen => rfl
  | parse => rfl
  | read => rfl
  | _ => exact h

lemma Quiet.clear (h : Quiet code) : Clear code := fun a ha => Action.inHand_of_reads (h a ha)

lemma Quiet.sub (h : Quiet code) (hsub : ∀ op ∈ rest, op ∈ code) : Quiet rest :=
  fun a ha => h a (hsub _ ha)

lemma Clear.hand (h : Clear code) : hand code = none := by
  induction code with
  | nil => rfl
  | cons op rest ih =>
      have hrest := ih fun a ha => h a (List.mem_cons_of_mem _ ha)
      cases op with
      | lock m => exact hrest
      | unlock m => exact hrest
      | act a => simp [Threads.hand, h a List.mem_cons_self]

lemma Clear.tidy (h : Clear code) : Tidy code := by
  induction code with
  | nil => trivial
  | cons op rest ih =>
      have hclear : Clear rest := fun a ha => h a (List.mem_cons_of_mem _ ha)
      cases op with
      | lock m => exact ih hclear
      | unlock m => exact ih hclear
      | act a => exact hclear

lemma act_notMem_unwind (a : Action) (code : Code) : .act a ∉ unwind [] code := by
  have hnone : ∀ code : Code, Releases code → .act a ∉ code := by
    intro code hcode
    induction hcode with
    | nil => simp
    | cons _ _ ih => simpa using ih
  exact hnone _ (releases_unwind code [])

lemma quiet_unwind (code : Code) : Quiet (unwind [] code) :=
  fun a ha => absurd ha (act_notMem_unwind a code)

lemma quiet_program (job : Job) : Quiet job.program := by
  rcases job with ⟨call, key⟩
  intro a ha
  cases call <;>
    simp only [Job.program, sendFrameInto, sendRaw, loadDeflate, clearOpen, List.cons_append,
      List.nil_append, List.mem_cons, reduceCtorEq, Op.act.injEq, false_or, or_false,
      List.not_mem_nil] at ha <;>
    grind [Action.reads, Action.inHand]

lemma quiet_sendFrameInto (job : Job) : Quiet (sendFrameInto job) := by
  intro a ha
  simp only [sendFrameInto, sendRaw, List.cons_append, List.nil_append, List.mem_cons,
    reduceCtorEq, Op.act.injEq, false_or, or_false, List.not_mem_nil] at ha
  grind [Action.reads, Action.inHand]

lemma clear_readFrame : Clear readFrame := by
  intro a ha
  obtain rfl : a = .testOpen := by simpa [readFrame] using ha
  rfl

lemma Clear.append (h : Clear code) (h' : Clear rest) : Clear (code ++ rest) := by
  intro a ha
  rcases List.mem_append.mp ha with ha | ha
  · exact h a ha
  · exact h' a ha

end Places

/-! ## The system, watched -/

/-- The bytes that arrive. -/
def Act.bytes {ι : Type} : Act ι → List UInt8
  | .arrive event => inputBytes [event]
  | _ => []

namespace System

variable {ι : Type} [DecidableEq ι] (e : Env)

omit [DecidableEq ι] in
/-- The message that a step hands to a caller of `read_message`. -/
def gives (s : System ι) : Act ι → List Message
  | .run t _ _ =>
      match s.rest t with
      | .act a :: _ => a.given e s.conn
      | _ => []
  | _ => []

end System

/-- A system, with the bytes that have arrived and the messages that have been handed over. -/
structure Watched (ι : Type) where
  sys : System ι
  arrived : List UInt8
  given : List Message

namespace Watched

variable {ι : Type} [DecidableEq ι] (e : Env)

/-- A connection that nobody uses. -/
def opened (c : Connection) : Watched ι := ⟨.opened c, [], []⟩

/-- A step of the system. -/
def step (w : Watched ι) (a : Act ι) : Option (Watched ι) :=
  (w.sys.step e a).map fun s => ⟨s, w.arrived ++ a.bytes, w.given ++ w.sys.gives e a⟩

/-- A call of `read_message` begins when the one before has returned. -/
def OneReader (w : Watched ι) : Act ι → Prop
  | .read _ => ∀ u, w.sys.reading u = true → w.sys.rest u = []
  | _ => True

end Watched

/-! ## Steps that do not read -/

namespace System

variable {ι : Type} [DecidableEq ι] {e : Env} {s s' : System ι} {t : ι} {ok : Bool} {n : ℕ}

/-- A step of `t` beside the read side of the connection. -/
structure Aside (s s' : System ι) (t : ι) (code : Code) : Prop where
  parser : s'.conn.parser = s.conn.parser
  readState : s'.conn.readState = s.conn.readState
  input : s'.conn.input = s.conn.input
  fragment : s'.conn.fragment = s.conn.fragment
  reading : s'.reading = s.reading
  rest : s'.rest = Function.update s.rest t code
  hand : Tidy (s.rest t) → hand code = Threads.hand (s.rest t) ∧ Tidy code
  quiet : Quiet (s.rest t) → Quiet code
  read : .act .read ∈ code → .act .read ∈ s.rest t

/-- An action that does not read leaves the read side alone. -/
lemma turn_aside (c : Connection) (rest : Code) {a : Action} (ha : a.reads = false)
    (hcompress : a.job = none) :
    (a.turn e c rest).1.parser = c.parser ∧ (a.turn e c rest).1.readState = c.readState ∧
      (a.turn e c rest).1.input = c.input ∧ (a.turn e c rest).1.fragment = c.fragment ∧
      (a.turn e c rest).2 = .go rest := by
  cases a with
  | setLastClose code reason => exact ⟨rfl, rfl, rfl, rfl, rfl⟩
  | build job => exact ⟨rfl, rfl, rfl, rfl, rfl⟩
  | flush => exact ⟨rfl, rfl, rfl, rfl, rfl⟩
  | clearOpen => exact ⟨rfl, rfl, rfl, rfl, rfl⟩
  | compress job => simp at hcompress
  | write job written => simp at hcompress
  | _ => simp [Action.reads, Action.inHand] at ha

omit [DecidableEq ι] in
lemma quiet_behind {op : Op Mutex Action} {rest : Code} (hrest : s.rest t = op :: rest)
    (h : Quiet (s.rest t)) : Quiet rest := by
  rw [hrest] at h
  exact h.sub fun _ => List.mem_cons_of_mem _

omit [DecidableEq ι] in
lemma mem_behind {op op' : Op Mutex Action} {rest : Code} (hrest : s.rest t = op :: rest)
    (h : op' ∈ rest) : op' ∈ s.rest t := by
  rw [hrest]
  exact List.mem_cons_of_mem _ h

omit [DecidableEq ι] in
lemma hand_behind {a : Action} {rest code : Code} (hrest : s.rest t = .act a :: rest)
    (ha : a.reads = false) (hclear : Clear rest → Clear code) (h : Tidy (s.rest t)) :
    hand code = hand (s.rest t) ∧ Tidy code := by
  rw [hrest] at h ⊢
  have hcode := hclear h
  exact ⟨by rw [hcode.hand]; simp [hand, Action.inHand_of_reads ha], hcode.tidy⟩

/-- The next operation of a task that does not read at it. -/
lemma aside_of_ran (hran : Ran e s t ok s')
    (hact : ∀ a rest, s.rest t = .act a :: rest → a.reads = false) : ∃ code, Aside s s' t code := by
  cases hran with
  | @lock m rest hrest hfree =>
      refine ⟨rest, rfl, rfl, rfl, rfl, rfl, rfl, ?_, quiet_behind hrest, mem_behind hrest⟩
      rw [hrest]
      exact fun h => ⟨rfl, h⟩
  | @unlock m rest hrest =>
      refine ⟨rest, rfl, rfl, rfl, rfl, rfl, rfl, ?_, quiet_behind hrest, mem_behind hrest⟩
      rw [hrest]
      exact fun h => ⟨rfl, h⟩
  | @turn a rest hrest ha hread =>
      obtain ⟨hparser, hstate, hinput, hfragment, hturn⟩ :=
        turn_aside (e := e) s.conn rest (hact a rest hrest) ha
      rw [hturn]
      exact ⟨rest, hparser, hstate, hinput, hfragment, rfl, rfl,
        hand_behind hrest (hact a rest hrest) id, quiet_behind hrest, mem_behind hrest⟩
  | @compress job rest hrest hframe =>
      -- the sending that comes in front has nothing in hand and does not read
      refine ⟨sendFrameInto job ++ rest, rfl, rfl, rfl, rfl, rfl, rfl,
        hand_behind hrest rfl (quiet_sendFrameInto job).clear.append, fun h a ha => ?_,
        fun hread => ?_⟩
      · rcases List.mem_append.mp ha with ha | ha
        · exact quiet_sendFrameInto job a ha
        · exact h a (mem_behind hrest ha)
      · rcases List.mem_append.mp hread with hread | hread
        · have hquiet := quiet_sendFrameInto job .read hread
          simp [Action.reads] at hquiet
        · exact mem_behind hrest hread
  | @uncompressed job rest hrest hframe =>
      exact ⟨rest, rfl, rfl, rfl, rfl, rfl, rfl, hand_behind hrest rfl id, quiet_behind hrest,
        mem_behind hrest⟩
  | @part job written rest piece hrest hpiece hlt =>
      refine ⟨_, rfl, rfl, rfl, rfl, rfl, rfl, ?_, fun h a ha => ?_, fun hread => ?_⟩
      · rw [hrest]
        exact fun h => ⟨rfl, h⟩
      · rcases List.mem_cons.mp ha with ha | ha
        · obtain rfl := Op.act.inj ha
          rfl
        · exact h a (mem_behind hrest ha)
      · rcases List.mem_cons.mp hread with hread | hread
        · simp at hread
        · exact mem_behind hrest hread
  | @last job written rest hrest =>
      exact ⟨rest, rfl, rfl, rfl, rfl, rfl, rfl, hand_behind hrest rfl id, quiet_behind hrest,
        mem_behind hrest⟩
  | @fail a rest hrest hok hread =>
      exact ⟨unwind [] rest, rfl, rfl, rfl, rfl, rfl, rfl,
        hand_behind hrest (hact a rest hrest) fun _ => (quiet_unwind rest).clear,
        fun _ => quiet_unwind rest, fun h => absurd h (act_notMem_unwind _ rest)⟩

/-- The next operation of a task that reads at it. -/
lemma run_reads {a : Action} {rest : Code} (hrest : s.rest t = .act a :: rest)
    (ha : a.reads = true) (h : s.run e t ok n = some s') :
    s' = s.follow e t (a.turn e s.conn rest).1 (a.turn e s.conn rest).2 ∧
      (a.isRead = true → s.silent = false) := by
  rw [run, hrest] at h
  cases a with
  | read =>
      simp only [perform] at h
      split at h
      · simp at h
      · rename_i hsilent
        exact ⟨(Option.some.inj h).symm, fun _ => by simpa using hsilent⟩
  | testOpen => exact ⟨(Option.some.inj h).symm, by simp⟩
  | parse => exact ⟨(Option.some.inj h).symm, by simp⟩
  | handle f => exact ⟨(Option.some.inj h).symm, by simp⟩
  | continuation payload fin => exact ⟨(Option.some.inj h).symm, by simp⟩
  | data opcode f => exact ⟨(Option.some.inj h).symm, by simp⟩
  | deliver opcode payload compressed => exact ⟨(Option.some.inj h).symm, by simp⟩
  | _ => simp [Action.reads, Action.inHand] at ha

end System

/-! ## What a turn of the reader does -/

section Turns

variable {e : Env} {c conn conn' : Connection} {arrived : List UInt8} {given : List Message}
  {frames : List Frame} {code rest : Code} {a : Action}

/-- The messages, once what is in hand is dealt with. -/
def settled (e : Env) (c : Connection) (code : Code) (x : Progress) : Progress :=
  match hand code with
  | none => x
  | some a => a.settle e c x

@[simp] lemma settled_lock (m : Mutex) (x : Progress) :
    settled e c (.lock m :: code) x = settled e c code x := rfl

@[simp] lemma settled_unlock (m : Mutex) (x : Progress) :
    settled e c (.unlock m :: code) x = settled e c code x := rfl

@[simp] lemma settled_act (ha : a.inHand = true) (x : Progress) :
    settled e c (.act a :: code) x = a.settle e c x := by
  rw [settled, hand, ha]
  rfl

lemma Clear.settled (h : Clear code) (x : Progress) : settled e c code x = x := by
  rw [Threads.settled, h.hand]

/-- The parser has had what is buffered, and asks for more. -/
structure Stalled (e : Env) (conn : Connection) : Prop where
  compacted : conn.readState.pos = 0
  asks : outcome (Parser.sub e.bits) conn.parser conn.readState.unparsed =
    (conn.parser, none, conn.readState.unparsed)

/-- These are the frames that the parser has taken out of what has arrived. -/
def Matched (e : Env) (c conn : Connection) (arrived : List UInt8) (frames : List Frame) : Prop :=
  ∃ p rest, Took e c c.parser (c.pending ++ arrived) frames p rest ∧
    ∀ more, outcome (Parser.sub e.bits) p (rest ++ more) =
      outcome (Parser.sub e.bits) conn.parser (conn.pending ++ more)

lemma Matched.congr (h : Matched e c conn arrived frames) (hparser : conn'.parser = conn.parser)
    (hpending : conn'.pending = conn.pending) : Matched e c conn' arrived frames := by
  obtain ⟨p, rest, htook, hmore⟩ := h
  refine ⟨p, rest, htook, fun more => ?_⟩
  rw [hmore, hparser, hpending]

/-- What is in hand, and what is read, goes with the frames taken. -/
structure Goes (e : Env) (c : Connection) (arrived : List UInt8) (given : List Message)
    (conn : Connection) (code : Code) : Prop where
  frames : ∃ frames, Matched e c conn arrived frames ∧
    settled e c code (conn.fragment.group, given) = reassemble e c frames
  tidy : Tidy code
  stalled : .act .read ∈ code → Stalled e conn

lemma Goes.aside (h : Goes e c arrived given conn (.act a :: rest)) (ha : a.inHand = false)
    (hparser : conn'.parser = conn.parser) (hpending : conn'.pending = conn.pending)
    (hfragment : conn'.fragment = conn.fragment) (hcode : Clear code)
    (hread : .act .read ∉ code) : Goes e c arrived given conn' code := by
  obtain ⟨frames, hmatched, hsettled⟩ := h.frames
  refine ⟨⟨frames, hmatched.congr hparser hpending, ?_⟩, hcode.tidy, fun h => absurd h hread⟩
  rw [settled, hand, ha] at hsettled
  rw [hcode.settled, hfragment, ← hsettled]
  rfl

/-- A turn that deals with what is in hand, in part or in whole. -/
lemma Goes.deal {given' : List Message} (h : Goes e c arrived given conn (.act a :: rest))
    (ha : a.inHand = true) (hparser : conn'.parser = conn.parser)
    (hpending : conn'.pending = conn.pending)
    (hsettle : settled e c code (conn'.fragment.group, given') =
      a.settle e c (conn.fragment.group, given))
    (htidy : Tidy code) (hread : .act .read ∉ code) : Goes e c arrived given' conn' code := by
  obtain ⟨frames, hmatched, hsettled⟩ := h.frames
  refine ⟨⟨frames, hmatched.congr hparser hpending, ?_⟩, htidy, fun h => absurd h hread⟩
  rw [settled, hand, ha] at hsettled
  rw [hsettle, ← hsettled]
  rfl

lemma clear_answer (call : Outgoing) {before after : Code} (key : Key) (hbefore : Clear before)
    (hafter : Clear after) : Clear ((Turn.answer call before after).code key) :=
  (hbefore.append (quiet_program _).clear).append hafter

lemma read_notMem_answer {call : Outgoing} {before after : Code} (key : Key)
    (hbefore : .act .read ∉ before) (hafter : .act .read ∉ after) :
    .act .read ∉ (Turn.answer call before after).code key := by
  intro h
  simp only [Turn.code, List.mem_append] at h
  rcases h with (h | h) | h
  · exact hbefore h
  · have hquiet := quiet_program _ .read h
    simp [Action.reads] at hquiet
  · exact hafter h

lemma clear_nil : Clear [] := fun _ h => by simp at h

lemma clear_unlock (m : Mutex) : Clear [.unlock m] := fun _ h => by simp at h

section Parsing

variable {q : Parser} {k : ℕ}

/-- The parser has a frame; one that is refused leaves nothing to handle. -/
lemma turn_complete (rest : Code)
    (h : pump (Parser.sub e.bits) conn.parser conn.readState.unparsed = (q, some .complete, k)) :
    ∃ rs : ReadState, rs.unparsed = conn.readState.unparsed.drop k ∧
      Action.parse.turn e conn rest = (conn.withRead q.takeFrame.2 rs conn.input,
        .go (loadDeflate ++ rest ++ (accepted conn q).map fun frame => .act (.handle frame))) := by
  obtain ⟨q', r, k', rs, hpump, hbuffered, hrs⟩ := Connection.parseBuffered_eq e conn
  obtain ⟨rfl, rfl, rfl⟩ : q' = q ∧ r = some .complete ∧ k' = k := by
    simpa using hpump.symm.trans h
  obtain ⟨rs', hcomplete, hrs'⟩ := Connection.completeFrame_eq (conn.withRead q' rs conn.input)
  refine ⟨rs', hrs'.trans hrs, ?_⟩
  have hverdict : Connection.verdict (conn.withRead q' rs conn.input).role
      (conn.withRead q' rs conn.input).permessageDeflate
      (conn.withRead q' rs conn.input).parser.takeFrame.1 =
      Connection.verdict conn.role conn.permessageDeflate q'.takeFrame.1 := rfl
  simp only [Action.turn, hbuffered, hcomplete, hverdict]
  rw [accepted]
  rcases Connection.verdict conn.role conn.permessageDeflate q'.takeFrame.1 with err | _ | frame
  · simp [Connection.withRead]
  · simp [Connection.withRead]
  · rfl

lemma turn_error (rest : Code)
    (h : pump (Parser.sub e.bits) conn.parser conn.readState.unparsed = (q, some .error, k)) :
    ∃ rs : ReadState, rs.unparsed = conn.readState.unparsed.drop k ∧
      Action.parse.turn e conn rest = (conn.withRead q rs conn.input,
        .answer (.close 1002 "invalid frame") rest []) := by
  obtain ⟨q', r, k', rs, hpump, hbuffered, hrs⟩ := Connection.parseBuffered_eq e conn
  obtain ⟨rfl, rfl, rfl⟩ : q' = q ∧ r = some .error ∧ k' = k := by
    simpa using hpump.symm.trans h
  exact ⟨rs, hrs, by simp only [Action.turn, hbuffered]⟩

lemma turn_more (rest : Code)
    (h : pump (Parser.sub e.bits) conn.parser conn.readState.unparsed = (q, none, k)) :
    ∃ rs : ReadState, rs.unparsed = conn.readState.unparsed.drop k ∧ rs.pos = 0 ∧
      Action.parse.turn e conn rest = (conn.withRead q rs conn.input,
        .go ([.lock .stream, .act .read, .unlock .stream, .act .parse] ++ rest)) := by
  obtain ⟨q', r, k', rs, hpump, hbuffered, hrs⟩ := Connection.parseBuffered_eq e conn
  obtain ⟨rfl, rfl, rfl⟩ : q' = q ∧ r = none ∧ k' = k := by
    simpa using hpump.symm.trans h
  obtain ⟨rs', hcompact, hrs', hpos⟩ := Connection.compact_eq (conn.withRead q' rs conn.input)
  refine ⟨rs', hrs'.trans hrs, hpos, ?_⟩
  simp only [Action.turn, hbuffered, hcompact]
  rfl

/-- After a call that asks for more the parser asks for more again. -/
lemma outcome_again {a : List UInt8} {p : Parser}
    (h : pump (Parser.sub e.bits) p a = (q, none, k)) :
    outcome (Parser.sub e.bits) q (a.drop k) = (q, none, a.drop k) := by
  have hself := pump_append_none (Parser.splits e.bits) [] h
  rw [List.append_nil, List.append_nil, h] at hself
  simp only [Prod.mk.injEq] at hself
  obtain ⟨hq, hnone, hk⟩ := hself
  have hzero : (pump (Parser.sub e.bits) q (a.drop k)).2.2 = 0 := by omega
  rw [outcome, ← hq, ← hnone, hzero, List.drop_zero]

end Parsing

/-- The parser is called on what is buffered. -/
lemma Goes.parse (h : Goes e c arrived given conn (.act .parse :: rest))
    (hrest : rest = [.unlock .parser, .unlock .readState]) (hrole : conn.role = c.role)
    (hdeflate : conn.permessageDeflate = c.permessageDeflate) (key : Key) :
    Goes e c arrived given (Action.parse.turn e conn rest).1
      ((Action.parse.turn e conn rest).2.code key) := by
  subst hrest
  obtain ⟨frames, ⟨p, stream, htook, hmore⟩, hsettled⟩ := h.frames
  have hgroup : (conn.fragment.group, given) = reassemble e c frames := hsettled
  have hnow := hmore []
  rw [List.append_nil, List.append_nil, Connection.pending] at hnow
  rcases hpump : pump (Parser.sub e.bits) conn.parser conn.readState.unparsed with
    ⟨q, _ | _ | _, k⟩
  · -- no frame yet: more bytes are asked for
    obtain ⟨rs, hrs, hpos, hturn⟩ := turn_more [.unlock .parser, .unlock .readState] hpump
    rw [hturn]
    refine ⟨⟨frames, ⟨p, stream, htook, fun more => ?_⟩, hgroup⟩, ?_, fun _ => ?_⟩
    · rw [hmore, Connection.pending, List.append_assoc,
        outcome_append_none (Parser.splits e.bits) _ hpump, ← hrs, ← List.append_assoc]
      rfl
    · intro a ha
      obtain rfl : a = .parse := by simpa using ha
      rfl
    · refine ⟨hpos, ?_⟩
      show outcome (Parser.sub e.bits) q rs.unparsed = (q, none, rs.unparsed)
      rw [hrs, outcome_again hpump]
  · obtain ⟨rs, hrs, hturn⟩ := turn_complete [.unlock .parser, .unlock .readState] hpump
    rw [outcome_append_some (Parser.splits e.bits) _ hpump, ← hrs] at hnow
    -- a frame, which is judged as at the start of the run
    have hsame : accepted conn q = accepted c q := by rw [accepted, accepted, hrole, hdeflate]
    rw [hturn, hsame]
    refine ⟨⟨_, ⟨_, _, .frame htook hnow, fun more => rfl⟩, ?_⟩, ?_, fun hread => ?_⟩
    · rw [reassemble, List.foldl_append, ← reassemble, ← hgroup]
      rcases accepted_cases c q with hnone | ⟨f, hone⟩
      · rw [hnone]
        rfl
      · rw [hone]
        rfl
    · rcases accepted_cases c q with hnone | ⟨f, hone⟩
      · rw [hnone]
        trivial
      · rw [hone]
        exact clear_nil
    · simp [Turn.code, loadDeflate] at hread
  · obtain ⟨rs, hrs, hturn⟩ := turn_error [.unlock .parser, .unlock .readState] hpump
    rw [outcome_append_some (Parser.splits e.bits) _ hpump, ← hrs] at hnow
    -- an error, behind which nothing is in hand
    have hclear : Clear ((Turn.answer (.close 1002 "invalid frame")
        [.unlock .parser, .unlock .readState] []).code key) :=
      clear_answer _ key (fun a ha => by simp at ha) clear_nil
    rw [hturn]
    exact ⟨⟨frames, ⟨_, _, .error htook hnow, fun more => rfl⟩, (hclear.settled _).trans hgroup⟩,
      hclear.tidy, fun hread => absurd hread (read_notMem_answer key (by simp) (by simp))⟩

/-- A read puts what it gets behind what is buffered. -/
lemma Goes.read (h : Goes e c arrived given conn (.act .read :: rest))
    (hrest : rest = [.unlock .stream, .act .parse, .unlock .parser, .unlock .readState])
    (key : Key) : Goes e c arrived given (Action.read.turn e conn rest).1
      ((Action.read.turn e conn rest).2.code key) := by
  subst hrest
  have hleave : Clear (unwind [] [.unlock .stream, .act .parse, .unlock .parser,
      .unlock .readState]) := (quiet_unwind _).clear
  simp only [Action.turn]
  split
  · -- the peer has ended the stream
    refine h.aside rfl rfl rfl rfl (hleave.append fun a ha => ?_) ?_
    · simp only [clearOpen, List.mem_cons, reduceCtorEq, Op.act.injEq, false_or, or_false,
        List.not_mem_nil] at ha
      subst ha
      rfl
    · simp [Turn.code, unwind, clearOpen]
  · rename_i input hinput
    exact h.aside rfl rfl (by simp [Connection.pending, hinput, inputBytes]) rfl hleave
      (by simp [Turn.code, unwind])
  · rename_i chunk input hinput
    obtain ⟨frames, ⟨p, stream, htook, hmore⟩, hsettled⟩ := h.frames
    refine ⟨⟨frames, ⟨p, stream, htook, fun more => ?_⟩, hsettled⟩, ?_, ?_⟩
    · have hpos := (h.stalled List.mem_cons_self).compacted
      rw [hmore]
      simp [Connection.pending, ReadState.unparsed, hinput, hpos, inputBytes]
    · intro a ha
      simp at ha
    · simp [Turn.code]

/-- The frame is looked at. -/
lemma Goes.handle {f : Frame} (h : Goes e c arrived given conn (.act (.handle f) :: rest))
    (hrest : rest = []) (key : Key) :
    Goes e c arrived given ((Action.handle f).turn e conn rest).1
      (((Action.handle f).turn e conn rest).2.code key) := by
  subst hrest
  simp only [Action.turn, Action.handleFrame]
  cases hop : f.header.opcode with
  | close =>
      -- the payload goes into `last_close` first
      have hbefore : Clear [.lock .lastClose, .act (.setLastClose
          (Connection.parseClosePayload f.payload).1 (Connection.parseClosePayload f.payload).2),
          .unlock .lastClose] := fun a ha => by
        obtain rfl : a = _ := by simpa using ha
        rfl
      have hclear := clear_answer (.echo (Connection.parseClosePayload f.payload).1) key hbefore
        clear_nil
      refine h.deal rfl rfl rfl ?_ hclear.tidy (read_notMem_answer key (by simp) (by simp))
      rw [hclear.settled]
      simp [Action.settle, take, behind, step, hop, message]
  | ping =>
      have hclear := clear_answer (.pong f.payload) key clear_nil clear_readFrame
      refine h.deal rfl rfl rfl ?_ hclear.tidy
        (read_notMem_answer key (by simp) (by simp [readFrame]))
      simp only [List.nil_append]
      rw [hclear.settled]
      simp [Action.settle, take, behind, step, hop]
  | pong =>
      refine h.deal rfl rfl rfl ?_ clear_readFrame.tidy (by simp [Turn.code, readFrame])
      simp only [List.nil_append, Turn.code]
      rw [clear_readFrame.settled]
      simp [Action.settle, take, behind, step, hop]
  | continuation =>
      refine h.deal rfl rfl rfl ?_ (clear_unlock .fragment) (by simp [Turn.code])
      show Action.settle e c _ (.continuation f.payload f.header.fin) = _
      cases hgroup : conn.fragment.group <;>
        simp [Action.settle, take, behind, step, hop, message]
  | text =>
      refine h.deal rfl rfl rfl ?_ (clear_unlock .fragment) (by simp [Turn.code])
      show Action.settle e c _ (.data .text f) = _
      simp [Action.settle, take, step, hop]
  | binary =>
      refine h.deal rfl rfl rfl ?_ (clear_unlock .fragment) (by simp [Turn.code])
      show Action.settle e c _ (.data .binary f) = _
      simp [Action.settle, take, step, hop]

/-- A continuation is put behind the message in progress. -/
lemma Goes.continuation {payload : List UInt8} {fin : Bool}
    (h : Goes e c arrived given conn (.act (.continuation payload fin) :: rest))
    (hrest : rest = [.unlock .fragment]) (key : Key) :
    Goes e c arrived given ((Action.continuation payload fin).turn e conn rest).1
      (((Action.continuation payload fin).turn e conn rest).2.code key) := by
  subst hrest
  simp only [Action.turn]
  cases hactive : conn.fragment.active with
  | false =>
      have hclear := clear_answer (.close 1002 "Unexpected continuation frame") key
        clear_nil (clear_unlock .fragment)
      refine h.deal rfl rfl rfl ?_ hclear.tidy (read_notMem_answer key (by simp) (by simp))
      simp only [Bool.not_false, if_true]
      rw [hclear.settled]
      simp [Action.settle, FragmentState.group, hactive]
  | true =>
      cases fin with
      | false =>
          have hclear : Clear ([.unlock .fragment] ++ readFrame) :=
            (clear_unlock _).append clear_readFrame
          refine h.deal rfl rfl rfl ?_ hclear.tidy (by simp [Turn.code, readFrame])
          simp only [Bool.not_true, Bool.false_eq_true, if_false, Turn.code]
          rw [hclear.settled]
          simp [Action.settle, FragmentState.group, hactive, Group.extend, behind]
      | true =>
          refine h.deal rfl rfl rfl ?_ clear_nil (by simp [Turn.code, deliverMessage, loadDeflate])
          show Action.settle e c _ (.deliver conn.fragment.opcode
            (conn.fragment.buffer ++ payload) conn.fragment.compressed) = _
          simp [Action.settle, FragmentState.group, FragmentState.reset, hactive, Group.extend,
            behind]

/-- A first fragment is kept, or a whole message is on its way. -/
lemma Goes.data {opcode : Opcode} {f : Frame}
    (h : Goes e c arrived given conn (.act (.data opcode f) :: rest))
    (hrest : rest = [.unlock .fragment]) (key : Key) :
    Goes e c arrived given ((Action.data opcode f).turn e conn rest).1
      (((Action.data opcode f).turn e conn rest).2.code key) := by
  subst hrest
  simp only [Action.turn]
  cases hactive : conn.fragment.active with
  | true =>
      have hclear := clear_answer
        (.close 1002 "New data frame before fragmented message completed") key
        clear_nil (clear_unlock .fragment)
      refine h.deal rfl rfl rfl ?_ hclear.tidy (read_notMem_answer key (by simp) (by simp))
      simp only [if_true]
      rw [hclear.settled]
      simp [Action.settle, FragmentState.group, hactive, Reassembly.start, behind, message]
  | false =>
      cases hfin : f.header.fin with
      | false =>
          have hclear : Clear ([.unlock .fragment] ++ readFrame) :=
            (clear_unlock _).append clear_readFrame
          refine h.deal rfl rfl rfl ?_ hclear.tidy (by simp [Turn.code, readFrame])
          simp only [Bool.not_false, Bool.false_eq_true, if_false, if_true, Turn.code]
          rw [hclear.settled]
          simp [Action.settle, FragmentState.group, hactive, hfin, Reassembly.start, Group.extend,
            behind]
      | true =>
          refine h.deal rfl rfl rfl ?_ (clear_unlock .fragment)
            (by simp [Turn.code, deliverMessage, loadDeflate])
          show Action.settle e c _ (.deliver opcode f.payload f.header.rsv1) = _
          simp [Action.settle, FragmentState.group, hactive, hfin, Reassembly.start, Group.extend,
            behind]

/-- What `deliver_message` hands over is what the whole message gives. -/
lemma given_eq (hdeflate : conn.permessageDeflate = c.permessageDeflate) (opcode : Opcode)
    (payload : List UInt8) (compressed : Bool) :
    (Action.deliver opcode payload compressed).given e conn =
      message (Group.complete (inflate e c) ⟨opcode, compressed, payload⟩) := by
  have hplain : ∀ plain, (Connection.deliverPlain e conn opcode plain).2.toOption.toList =
      message (if opcode = .text ∧ ¬Utf8.ValidUtf8 plain then
        .error (.protocol "invalid UTF-8 in text frame") else .ok (some ⟨opcode, plain⟩)) := by
    intro plain
    have hiff : (opcode == .text && !isValidUtf8 plain) = true ↔
        opcode = .text ∧ ¬Utf8.ValidUtf8 plain := by
      rw [← isValidUtf8_iff .little plain]
      simp [isValidUtf8]
    rw [Connection.deliverPlain]
    by_cases hbad : opcode = .text ∧ ¬Utf8.ValidUtf8 plain
    · rw [if_pos hbad, if_pos (hiff.mpr hbad)]
      rcases Connection.close e conn 1007 "Invalid UTF-8 in text frame" with ⟨conn', _ | _⟩ <;> rfl
    · rw [if_neg hbad, if_neg fun h => hbad (hiff.mp h)]
      rfl
  rw [Action.given, Connection.deliverMessage, Group.complete, inflate, hdeflate]
  cases compressed with
  | false => exact hplain payload
  | true =>
      cases c.permessageDeflate with
      | false => rfl
      | true =>
          simp only [if_true, Bool.not_true, Bool.false_eq_true, if_false]
          cases decompressMessage e.zlib payload with
          | none => rfl
          | some plain => exact hplain plain

/-- The message is handed over, or given up. -/
lemma Goes.deliver {opcode : Opcode} {payload : List UInt8} {compressed : Bool}
    (h : Goes e c arrived given conn (.act (.deliver opcode payload compressed) :: rest))
    (hrest : rest = [] ∨ rest = [.unlock .fragment])
    (hdeflate : conn.permessageDeflate = c.permessageDeflate) (key : Key) :
    Goes e c arrived (given ++ (Action.deliver opcode payload compressed).given e conn)
      ((Action.deliver opcode payload compressed).turn e conn rest).1
      (((Action.deliver opcode payload compressed).turn e conn rest).2.code key) := by
  have hclear : Clear rest := by
    rcases hrest with rfl | rfl
    · exact clear_nil
    · exact clear_unlock _
  have hread : .act .read ∉ rest := by rcases hrest with rfl | rfl <;> simp
  -- a text that is not valid is answered, anything else is handed over
  have hplain : ∀ plain, Clear ((Action.deliverPlain rest opcode plain).code key) ∧
      .act .read ∉ (Action.deliverPlain rest opcode plain).code key := by
    intro plain
    rw [Action.deliverPlain]
    split
    · exact ⟨clear_answer _ key clear_nil hclear, read_notMem_answer key (by simp) hread⟩
    · exact ⟨hclear, hread⟩
  have hturn : ((Action.deliver opcode payload compressed).turn e conn rest).1 = conn ∧
      Clear (((Action.deliver opcode payload compressed).turn e conn rest).2.code key) ∧
      .act .read ∉ ((Action.deliver opcode payload compressed).turn e conn rest).2.code key := by
    simp only [Action.turn]
    cases compressed with
    | false => exact ⟨rfl, hplain payload⟩
    | true =>
        simp only [if_true]
        cases conn.permessageDeflate with
        | false =>
            exact ⟨rfl, clear_answer _ key clear_nil hclear,
              read_notMem_answer key (by simp) hread⟩
        | true =>
            cases decompressMessage e.zlib payload with
            | none => exact ⟨rfl, hclear, hread⟩
            | some plain => exact ⟨rfl, hplain plain⟩
  obtain ⟨hconn, hcode, hnot⟩ := hturn
  refine h.deal rfl (by rw [hconn]) (by rw [hconn]) ?_ hcode.tidy hnot
  rw [hcode.settled, hconn, given_eq hdeflate]
  rfl

/-- **A turn of the reader.** -/
lemma Goes.turn (h : Goes e c arrived given conn (.act a :: rest)) (ha : a.reads = true)
    (hfits : a.Fits e c rest) (hrole : conn.role = c.role)
    (hdeflate : conn.permessageDeflate = c.permessageDeflate) (key : Key) :
    Goes e c arrived (given ++ a.given e conn) (a.turn e conn rest).1
      ((a.turn e conn rest).2.code key) := by
  cases a with
  | testOpen =>
      obtain rfl : rest = _ := hfits
      simp only [Action.given, List.append_nil]
      refine h.aside rfl rfl rfl rfl ?_ ?_
      · simp only [Action.turn]
        split
        · intro a ha
          obtain rfl : a = .parse := by simpa [Turn.code] using ha
          rfl
        · exact clear_unlock _
      · simp only [Action.turn]
        split <;> simp [Turn.code]
  | parse =>
      simp only [Action.given, List.append_nil]
      exact h.parse hfits hrole hdeflate key
  | read =>
      simp only [Action.given, List.append_nil]
      exact h.read hfits key
  | handle f =>
      simp only [Action.given, List.append_nil]
      exact h.handle hfits key
  | continuation payload fin =>
      simp only [Action.given, List.append_nil]
      exact h.continuation hfits key
  | data opcode f =>
      simp only [Action.given, List.append_nil]
      exact h.data hfits key
  | deliver opcode payload compressed => exact h.deliver hfits hdeflate key
  | _ => simp [Action.reads, Action.inHand] at ha

end Turns

/-! ## Every state of every run -/

namespace Watched

variable {ι : Type} [DecidableEq ι] {e : Env} {c : Connection} {w w' : Watched ι} {t : ι}

/-- What holds while calls of `read_message` do not overlap. -/
structure Followed (e : Env) (c : Connection) (w : Watched ι) : Prop extends
    System.Orderly e c w.sys where
  quiet : ∀ t, w.sys.reading t = false → Quiet (w.sys.rest t)
  one : ∀ t u, t ≠ u → Quiet (w.sys.rest t) ∨ Quiet (w.sys.rest u)
  tidy : ∀ t, Tidy (w.sys.rest t)
  stalled : ∀ t, .act .read ∈ w.sys.rest t → Stalled e w.sys.conn
  frames : ∃ frames, Matched e c w.sys.conn w.arrived frames ∧
    (∀ r, (∀ u, u ≠ r → hand (w.sys.rest u) = none) →
      settled e c (w.sys.rest r) (w.sys.conn.fragment.group, w.given) = reassemble e c frames) ∧
    ((∀ u, hand (w.sys.rest u) = none) →
      (w.sys.conn.fragment.group, w.given) = reassemble e c frames)

omit [DecidableEq ι] in
lemma followed_opened : Followed e c (opened c : Watched ι) where
  toOrderly := System.orderly_opened
  quiet t _ := fun a ha => by simp [opened, System.opened] at ha
  one t u _ := .inl fun a ha => by simp [opened, System.opened] at ha
  tidy t := trivial
  stalled t h := by simp [opened, System.opened] at h
  frames := by
    refine ⟨[], ⟨c.parser, c.pending, ?_, fun more => rfl⟩, fun r _ => rfl, fun _ => rfl⟩
    have hnone : c.pending ++ (opened c : Watched ι).arrived = c.pending := List.append_nil _
    rw [hnone]
    exact .start

omit [DecidableEq ι] in
lemma Followed.matched_congr {conn : Connection} (hparser : conn.parser = w.sys.conn.parser)
    (hstate : conn.readState = w.sys.conn.readState) (hinput : conn.input = w.sys.conn.input)
    {frames : List Frame} (h : Matched e c w.sys.conn w.arrived frames) :
    Matched e c conn w.arrived frames :=
  h.congr hparser (by rw [Connection.pending, Connection.pending, hstate, hinput])

/-- A step that leaves alone what the reader has read and has in hand. -/
lemma Followed.beside {code : Code} (h : Followed e c w) (horderly : System.Orderly e c w'.sys)
    (hparser : w'.sys.conn.parser = w.sys.conn.parser)
    (hstate : w'.sys.conn.readState = w.sys.conn.readState)
    (hinput : w'.sys.conn.input = w.sys.conn.input)
    (hfragment : w'.sys.conn.fragment = w.sys.conn.fragment)
    (harrived : w'.arrived = w.arrived) (hgiven : w'.given = w.given)
    (hrest : w'.sys.rest = Function.update w.sys.rest t code)
    (hhand : hand code = hand (w.sys.rest t)) (htidy : Tidy code)
    (hquiet : ∀ u, w'.sys.reading u = false → Quiet (w'.sys.rest u))
    (hone : ∀ u, u ≠ t → Quiet code ∨ Quiet (w.sys.rest u))
    (hread : .act .read ∈ code → .act .read ∈ w.sys.rest t) : Followed e c w' := by
  have hcode : ∀ u, w'.sys.rest u = if u = t then code else w.sys.rest u := by
    intro u
    rw [hrest, Function.update_apply]
  -- nobody has anything else in hand than before
  have hhands : ∀ u, hand (w'.sys.rest u) = hand (w.sys.rest u) := by
    intro u
    rw [hcode]
    split
    · rename_i hu
      rw [hhand, hu]
    · rfl
  obtain ⟨frames, hmatched, hsettled, hidle⟩ := h.frames
  refine ⟨horderly, hquiet, fun t' u hne => ?_, fun u => ?_, fun u hu => ?_, frames, ?_,
    fun r hr => ?_, fun hnone => ?_⟩
  · rw [hcode, hcode]
    split
    · rename_i ht'
      rw [if_neg (ht' ▸ Ne.symm hne)]
      exact hone u (ht' ▸ Ne.symm hne)
    · rename_i ht'
      split
      · exact (hone t' ht').symm
      · exact h.one t' u hne
  · rw [hcode]
    split
    · exact htidy
    · exact h.tidy u
  · have hmem : .act .read ∈ w.sys.rest u := by
      rw [hcode] at hu
      split at hu
      · rename_i ht
        exact ht ▸ hread hu
      · exact hu
    obtain ⟨hpos, hasks⟩ := h.stalled u hmem
    exact ⟨by rw [hstate, hpos], by rw [hstate, hparser, hasks]⟩
  · rw [harrived]
    exact matched_congr hparser hstate hinput hmatched
  · have hold := hsettled r fun u hu => (hhands u).symm.trans (hr u hu)
    rw [hfragment, hgiven, settled, hhands]
    exact hold
  · rw [hfragment, hgiven]
    exact hidle fun u => (hhands u).symm.trans (hnone u)

/-- A step of the reader. -/
lemma Followed.reads {a : Action} {rest : Code} (h : Followed e c w)
    (hrest : w.sys.rest t = .act a :: rest) (ha : a.reads = true)
    (horderly : System.Orderly e c w'.sys)
    (hfollow : w'.sys = w.sys.follow e t (a.turn e w.sys.conn rest).1 (a.turn e w.sys.conn rest).2)
    (harrived : w'.arrived = w.arrived) (hgiven : w'.given = w.given ++ a.given e w.sys.conn) :
    Followed e c w' := by
  -- The task that moves is the only one that is not quiet, before and after.
  have hbusy : ¬Quiet (w.sys.rest t) := by
    intro hquiet
    have hnot := hquiet a (by rw [hrest]; exact List.mem_cons_self)
    rw [hnot] at ha
    simp at ha
  have hothers : ∀ u, u ≠ t → Quiet (w.sys.rest u) :=
    fun u hu => (h.one t u hu.symm).resolve_left hbusy
  have hsound := h.sound t
  rw [hrest, sound_act] at hsound
  -- So what has been given is settled by what this task has in hand.
  have hgoes : Goes e c w.arrived w.given w.sys.conn (.act a :: rest) := by
    obtain ⟨frames, hmatched, hsettled, -⟩ := h.frames
    refine ⟨⟨frames, hmatched, ?_⟩, hrest ▸ h.tidy t, fun hread => h.stalled t (hrest ▸ hread)⟩
    rw [← hrest]
    exact hsettled t fun u hu => (hothers u hu).clear.hand
  obtain ⟨⟨frames, hmatched, hsettled⟩, htidy, hstalled⟩ := hgoes.turn ha hsound.1.2.2 h.role
    h.permessageDeflate (e.keys (a.turn e w.sys.conn rest).1.writes)
  have hcode : ∀ u, w'.sys.rest u = if u = t then
      (a.turn e w.sys.conn rest).2.code (e.keys (a.turn e w.sys.conn rest).1.writes)
      else w.sys.rest u := by
    intro u
    rw [hfollow]
    exact Function.update_apply _ _ _ _
  have hquiet : ∀ u, u ≠ t → Quiet (w'.sys.rest u) := by
    intro u hu
    rw [hcode, if_neg hu]
    exact hothers u hu
  have hfragment : w'.sys.conn.fragment = (a.turn e w.sys.conn rest).1.fragment := by
    rw [hfollow]
    rfl
  refine ⟨horderly, fun u hu => ?_, fun u v huv => ?_, fun u => ?_, fun u hu => ?_, frames, ?_,
    fun r hr => ?_, fun hnone => ?_⟩
  · have hne : u ≠ t := by
      rintro rfl
      rw [hfollow] at hu
      exact hbusy (h.quiet u hu)
    exact hquiet u hne
  · rcases eq_or_ne u t with rfl | hu
    · exact .inr (hquiet v huv.symm)
    · exact .inl (hquiet u hu)
  · rw [hcode]
    split
    · exact htidy
    · exact h.tidy u
  · rcases eq_or_ne u t with rfl | hne
    · rw [hcode, if_pos rfl] at hu
      obtain ⟨hpos, hasks⟩ := hstalled hu
      rw [hfollow]
      exact ⟨hpos, hasks⟩
    · have hnot := hquiet u hne .read hu
      simp [Action.reads] at hnot
  · rw [harrived, hfollow]
    exact hmatched.congr rfl rfl
  · rw [hgiven, hfragment]
    rcases eq_or_ne r t with rfl | hne
    · rw [hcode, if_pos rfl]
      exact hsettled
    · -- the reader has nothing in hand
      have hnone := hr t hne.symm
      rw [hcode, if_pos rfl] at hnone
      rw [settled, hnone] at hsettled
      rw [(hquiet r hne).clear.settled]
      exact hsettled
  · rw [hgiven, hfragment]
    have hmine := hnone t
    rw [hcode, if_pos rfl] at hmine
    rw [settled, hmine] at hsettled
    exact hsettled

/-- A task's next operation. -/
lemma Followed.run {ok : Bool} {n : ℕ} (h : Followed e c w) {s : System ι}
    (hrun : w.sys.run e t ok n = some s) :
    Followed e c ⟨s, w.arrived, w.given ++ w.sys.gives e (.run t ok n)⟩ := by
  have hran := System.ran_of_run hrun
  have horderly := h.toOrderly.ran hran
  by_cases hact : ∃ a rest, w.sys.rest t = .act a :: rest ∧ a.reads = true
  · obtain ⟨a, rest, hrest, ha⟩ := hact
    refine h.reads hrest ha horderly (System.run_reads hrest ha hrun).1 rfl ?_
    simp only [System.gives, hrest]
  · have hnot : ∀ a rest, w.sys.rest t = .act a :: rest → a.reads = false := by
      intro a rest hrest
      by_contra ha
      exact hact ⟨a, rest, hrest, by simpa using ha⟩
    -- no action of a reader, so it goes past what has been read
    obtain ⟨code, haside⟩ := System.aside_of_ran hran hnot
    obtain ⟨hhand, htidy⟩ := haside.hand (h.tidy t)
    refine h.beside horderly haside.parser haside.readState haside.input haside.fragment rfl ?_
      haside.rest hhand htidy (fun u hu => ?_) (fun u hu => ?_) haside.read
    · show w.given ++ w.sys.gives e (.run t ok n) = w.given
      rw [System.gives]
      split
      · rename_i a rest hrest
        rw [Action.given_of_quiet (hnot a rest hrest), List.append_nil]
      · exact List.append_nil _
    · have hquiet := h.quiet u (by rw [← hu, ← haside.reading])
      show Quiet (s.rest u)
      rw [haside.rest]
      rcases eq_or_ne u t with rfl | hne
      · rw [Function.update_self]
        exact haside.quiet hquiet
      · rw [Function.update_of_ne hne]
        exact hquiet
    · exact (h.one t u hu.symm).imp_left haside.quiet

/-- **Every step** keeps to the frames that have arrived. -/
lemma Followed.step {a : Act ι} (h : Followed e c w) (ha : w.OneReader a)
    (hstep : w.step e a = some w') : Followed e c w' := by
  obtain ⟨s, hs, rfl⟩ := Option.map_eq_some_iff.mp hstep
  have horderly := h.toOrderly.step hs
  cases System.stepped_of_step hs with
  | @run t ok n _ hran =>
      have hsame : w.arrived ++ (Act.run t ok n).bytes = w.arrived := List.append_nil _
      rw [hsame]
      exact h.run hs
  | @send t call hidle =>
      have hquiet : Quiet ((Turn.answer call [] []).code (e.keys w.sys.conn.writes)) := by
        intro a ha
        simp only [Turn.code, List.nil_append, List.append_nil] at ha
        exact quiet_program _ a ha
      refine h.beside (t := t) horderly rfl rfl rfl rfl (List.append_nil _) (List.append_nil _) rfl
        ?_ hquiet.clear.tidy (fun u hu => ?_) (fun u hu => .inl hquiet) fun hread => ?_
      · rw [hquiet.clear.hand, hidle]
        rfl
      · show Quiet (Function.update w.sys.rest t _ u)
        rcases eq_or_ne u t with rfl | hne
        · rw [Function.update_self]
          exact hquiet
        · rw [Function.update_of_ne hne]
          have hreading : Function.update w.sys.reading t false u = false := hu
          rw [Function.update_of_ne hne] at hreading
          exact h.quiet u hreading
      · have hnot := hquiet .read hread
        simp [Action.reads] at hnot
  | @read t hidle =>
      -- where `read_message` begins, nobody else is in it
      have hothers : ∀ u, Quiet (w.sys.rest u) := by
        intro u
        cases hreading : w.sys.reading u with
        | false => exact h.quiet u hreading
        | true =>
            rw [ha u hreading]
            exact fun a ha => by simp at ha
      refine h.beside (t := t) horderly rfl rfl rfl rfl (List.append_nil _) (List.append_nil _) rfl
        ?_ clear_readFrame.tidy (fun u hu => ?_) (fun u hu => .inr (hothers u)) fun hread => ?_
      · rw [clear_readFrame.hand, hidle]
        rfl
      · have hne : u ≠ t := by
          rintro rfl
          have hreading : Function.update w.sys.reading u true u = false := hu
          rw [Function.update_self] at hreading
          simp at hreading
        show Quiet (Function.update w.sys.rest t _ u)
        rw [Function.update_of_ne hne]
        exact hothers u
      · simp [readFrame] at hread
  | @arrive event =>
      obtain ⟨frames, ⟨p, rest, htook, hmore⟩, hsettled⟩ := h.frames
      have hgiven : w.given ++ w.sys.gives e (.arrive event) = w.given := List.append_nil _
      rw [hgiven]
      refine ⟨horderly, h.quiet, h.one, h.tidy, fun t ht => ?_, frames,
        ⟨p, rest ++ inputBytes [event], ?_, fun more => ?_⟩, hsettled⟩
      · obtain ⟨hpos, hasks⟩ := h.stalled t ht
        exact ⟨hpos, hasks⟩
      · show Took e c c.parser (c.pending ++ (w.arrived ++ inputBytes [event])) _ _ _
        -- what arrives comes behind all that has arrived
        rw [← List.append_assoc]
        exact htook.append _
      · rw [List.append_assoc, hmore]
        show _ = outcome (Parser.sub e.bits) w.sys.conn.parser
          (w.sys.conn.readState.unparsed ++ inputBytes (w.sys.conn.input ++ [event]) ++ more)
        rw [Connection.inputBytes_append, Connection.pending]
        simp only [List.append_assoc]
  | hangUp =>
      have hgiven : w.given ++ w.sys.gives e .hangUp = w.given := List.append_nil _
      have harrived : w.arrived ++ (Act.hangUp : Act ι).bytes = w.arrived := List.append_nil _
      rw [hgiven, harrived]
      exact ⟨horderly, h.quiet, h.one, h.tidy, fun t ht => h.stalled t ht, h.frames⟩

/-- What has been given is given in any case. -/
lemma given_prefix (code : Code) (x : Progress) : x.2 <+: (settled e c code x).2 := by
  rw [settled]
  split
  · exact List.prefix_rfl
  · rename_i a _
    cases a with
    | continuation payload fin =>
        rw [Action.settle]
        split
        · exact List.prefix_rfl
        · exact List.prefix_append _ _
    | handle f => exact List.prefix_append _ _
    | data opcode f => exact List.prefix_append _ _
    | deliver opcode payload compressed => exact List.prefix_append _ _
    | _ => exact List.prefix_rfl

lemma act_of_atRead {code : Code} (h : atRead code = true) : ∃ rest, code = .act .read :: rest := by
  cases code with
  | nil => simp at h
  | cons op rest =>
      cases op with
      | lock m => simp at h
      | unlock m => simp at h
      | act a =>
          cases a with
          | read => exact ⟨rest, rfl⟩
          | _ => simp at h

/-- **What `read_message` gives does not depend on who else uses the connection.**  In every run in
which its calls do not overlap, the messages handed over are those that the frames make which the
parser takes out of what has arrived; all of them, if nobody is in a call or the reader waits; and
then the parser completes no further frame in what has arrived.  That can leave a frame without a
payload, which the parser does not complete before the next byte (`Wscpp.Rs.Arrival`). -/
theorem reader_undisturbed (c : Connection) (w : Watched ι)
    (hrun : Runs (step e) OneReader (opened c) w) :
    ∃ frames p rest, Took e c c.parser (c.pending ++ w.arrived) frames p rest ∧
      w.given <+: (reassemble e c frames).2 ∧
      ((∀ t, w.sys.rest t = []) → w.given = (reassemble e c frames).2) ∧
      ∀ t, w.sys.waits t = true → w.given = (reassemble e c frames).2 ∧
        (outcome (Parser.sub e.bits) p rest).2.1 = none := by
  have hall : Followed e c w :=
    hrun.invariant followed_opened fun _ _ _ h ha hstep => h.step ha hstep
  obtain ⟨frames, ⟨p, rest, htook, hmore⟩, hsettled, hidle⟩ := hall.frames
  refine ⟨frames, p, rest, htook, ?_, fun hreturned => ?_, fun t hwaits => ?_⟩
  · by_cases hhand : ∃ t, hand (w.sys.rest t) ≠ none
    · obtain ⟨t, ht⟩ := hhand
      -- a message in hand is the reader's, and one that it still gives makes up the rest
      have hbusy : ¬Quiet (w.sys.rest t) := fun hquiet => ht hquiet.clear.hand
      rw [← hsettled t fun u hu => ((hall.one t u hu.symm).resolve_left hbusy).clear.hand]
      exact given_prefix (w.sys.rest t) (w.sys.conn.fragment.group, w.given)
    · rw [← hidle fun u => by_contra fun hu => hhand ⟨u, hu⟩]
  · rw [← hidle fun u => by rw [hreturned u]; rfl]
  · obtain ⟨hread, hsilent⟩ := System.waits_iff.mp hwaits
    obtain ⟨after, hafter⟩ := act_of_atRead hread
    have hbusy : ¬Quiet (w.sys.rest t) := by
      intro hquiet
      have hnot := hquiet .read (by rw [hafter]; exact List.mem_cons_self)
      simp [Action.reads] at hnot
    have hnone : ∀ u, hand (w.sys.rest u) = none := by
      intro u
      rcases eq_or_ne u t with rfl | hu
      · rw [hafter]
        rfl
      · exact ((hall.one t u hu.symm).resolve_left hbusy).clear.hand
    refine ⟨by rw [← hidle hnone], ?_⟩
    -- it waits, so nothing has arrived that it has not taken into the buffer
    have hempty : w.sys.conn.input = [] := by
      rw [System.silent, Bool.and_eq_true, List.isEmpty_iff] at hsilent
      exact hsilent.1
    -- and the parser has been run on the buffer
    have hasks := (hall.stalled t (by rw [hafter]; exact List.mem_cons_self)).asks
    have hnow := hmore []
    rw [List.append_nil, List.append_nil, Connection.pending, hempty] at hnow
    simp only [inputBytes, List.append_nil] at hnow
    rw [hnow, hasks]

instance (w : Watched Bool) : (a : Act Bool) → Decidable (w.OneReader a)
  | .read _ => inferInstanceAs (Decidable (∀ u, w.sys.reading u = true → w.sys.rest u = []))
  | .send _ _ | .run _ _ _ | .arrive _ | .hangUp => inferInstanceAs (Decidable True)

end Watched

/-- `H`, to be continued. -/
def firstHalf : Chunk := ⟨[0x01, 0x01, 0x48], by decide, by decide⟩

/-- `i`, the end of the message. -/
def secondHalf : Chunk := ⟨[0x80, 0x01, 0x69], by decide, by decide⟩

/-- Between two fragments another task sends a message; then the reader waits for more. -/
def sendBetween : List (Act Bool) :=
  [.arrive (.data firstHalf), .read true] ++ runs true 18 ++ .send false (.text "a" true) ::
    runs false 10 ++ .arrive (.data secondHalf) :: runs true 21 ++ readAndWait

/-- The reader has been given `Hi`. -/
theorem reader_undisturbed_between :
    ∃ w : Watched Bool,
      play (Watched.step Connection.plainEnv) (.opened (.new [] .client false)) sendBetween =
        some w ∧
      w.given = [⟨.text, [0x48, 0x69]⟩] ∧
      ∃ frames p rest, Took Connection.plainEnv (.new [] .client false) .new
          [0x01, 0x01, 0x48, 0x80, 0x01, 0x69] frames p rest ∧
        w.given = (reassemble Connection.plainEnv (.new [] .client false) frames).2 ∧
        (outcome (Parser.sub 64) p rest).2.1 = none := by
  have hplay : (play (Watched.step Connection.plainEnv) (.opened (.new [] .client false))
      sendBetween).map (fun w => (w.given, w.arrived, w.sys.waits true)) =
        some ([⟨.text, [0x48, 0x69]⟩], [0x01, 0x01, 0x48, 0x80, 0x01, 0x69], true) := by
    decide +kernel
  obtain ⟨w, hw, hsummary⟩ := Option.map_eq_some_iff.mp hplay
  simp only [Prod.mk.injEq] at hsummary
  obtain ⟨hgiven, harrived, hwaits⟩ := hsummary
  obtain ⟨frames, p, rest, htook, -, -, hwaiting⟩ :=
    Watched.reader_undisturbed (.new [] .client false) w
      (runs_of_play (D := fun w a => decide (w.OneReader a)) _ (fun w a h => of_decide_eq_true h) _
        hw (by decide +kernel))
  obtain ⟨hall, hnone⟩ := hwaiting true hwaits
  rw [harrived] at htook
  exact ⟨w, hw, hgiven, frames, p, rest, htook, hall, hnone⟩

end Wscpp.Rs.Threads
