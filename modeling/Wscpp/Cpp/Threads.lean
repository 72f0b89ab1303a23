import Wscpp.Cpp.Connection
import Wscpp.Lib.Moves
import Mathlib.Data.Fintype.Pi

/-!
# The threads of a wscpp connection

The members of `connection::impl` are shared: any thread of the application may call `send_*` and
`close`, and the reader thread answers the frames of the peer.  This file has all of them, one
atomic step at a time.

Each function that writes a frame is a program of a few instructions, in the order of the source:
reading a flag and leaving if it is not as it should be, setting a flag, building a frame into
`outbound_frame_`, taking and releasing `write_mutex_`, writing.  A `System` has the shared members
and, for each thread, the call it is in and the instructions that are left of it.  A run is any
interleaving (`Wscpp.Moves`).

Each call ends by returning, and the system keeps a record of what the calls have returned: the job
and whether it got through.  For `send_*` that is the error code, for the reader whether it answered
the frame.  Frames should be neither lost nor duplicated nor mixed up: when nothing is under way,
the wire should have the frame of each recorded success and nothing else.  But a frame is built into
the shared buffer before the mutex is taken, so this needs that no thread builds its frame between
another's building and writing (`frames_intact`).

The record is made where a function returns and the wire where one writes, and an error code that is
never set means success.  So there is something to prove for each function: that it does not return
success without having written, and that it writes once.  The places at which a call has written and
not yet returned are the ones in between (`Task.written`).

What the threads do to the closing handshake is in `Wscpp.Cpp.Closing`.
-/

namespace Wscpp.Cpp

open Utf8 Moves

/-! ## What the threads do -/

/-- What is fixed for a connection. -/
structure Endpoint where
  platform : Platform
  role : Role
  permessageDeflate : Bool

/-- The calls of the application and the frames that the reader handles, those that write.  The
masking key is the one that the call draws; a `std::string` holds any bytes. -/
inductive Job
  | sendText (text : List UInt8) (fin : Bool) (key : Key)
  | sendBinary (data : List UInt8) (fin : Bool) (key : Key)
  | sendContinuation (data : List UInt8) (fin : Bool) (key : Key)
  | sendPing (data : List UInt8) (key : Key)
  | close (code : UInt16) (reason : List UInt8) (key : Key)
  /-- `handle_ping_frame`. -/
  | pong (payload : List UInt8) (key : Key)
  /-- `handle_close_frame`. -/
  | echo (code : UInt16) (key : Key)
  /-- `fail_with_close`. -/
  | fail (code : UInt16) (reason : String) (key : Key)
  /-- A read that fails. -/
  | lost

namespace Job

variable (e : Endpoint)

/-- The payload and `RSV1` bit of `send_data_frame`; nothing if the compression fails. -/
def compressed (op : Opcode) (data : List UInt8) (fin : Bool) : Option (List UInt8 × Bool) :=
  if e.platform.deflate && e.permessageDeflate && fin && (op == .text || op == .binary) then
    (compressMessage e.platform.zlib data).map fun z => (z, true)
  else some (data, false)

/-- The frame that `send_data_frame` builds. -/
def buildData (op : Opcode) (data : List UInt8) (fin : Bool) (key : Key) (out : List UInt8) :
    List UInt8 :=
  match compressed e op data fin with
  | none => out
  | some (payload, rsv1) =>
      buildInto e.platform.host out op payload fin (e.role == .client) key rsv1

/-- What `outbound_frame_` holds once the frame of a call is built into it. -/
def build (out : List UInt8) : Job → List UInt8
  | sendText text fin key => buildData e .text text fin key out
  | sendBinary data fin key => buildData e .binary data fin key out
  | sendContinuation data fin key => buildData e .continuation data fin key out
  | sendPing data key =>
      buildInto e.platform.host out .ping data true (e.role == .client) key false
  | close code reason key =>
      buildCloseInto e.platform.host out (if isValidCloseCode code then code else 1000) reason
        (e.role == .client) key
  | pong payload key =>
      buildInto e.platform.host out .pong payload true (e.role == .client) key false
  | echo code key => buildCloseInto e.platform.host out code [] (e.role == .client) key
  | fail code reason key =>
      buildCloseInto e.platform.host out code (strBytes reason) (e.role == .client) key
  | lost => out

/-- The frame that a call asks for. -/
def frame (job : Job) : List UInt8 := job.build e []

/-- What only the reader does. -/
def byReader : Job → Bool
  | pong _ _ | echo _ _ | fail _ _ _ | lost => true
  | _ => false

end Job

/-! ## Programs -/

/-- The flags that are tested. -/
inductive Flag
  | isOpen
  | notClosing
  deriving DecidableEq, Repr

/-- Where a function goes on when a flag is not as it should be. -/
inductive Exit
  /-- It returns. -/
  | leave
  /-- It returns and releases the mutex. -/
  | release
  /-- It goes on behind the `if`. -/
  | shutdown
  deriving DecidableEq, Repr

/-- The atomic steps of the functions. -/
inductive Instr
  | require (flag : Flag) (otherwise : Exit)
  /-- The blocking read of `read_one_frame`. -/
  | receive
  | setClosing
  | build
  | lock
  | write
  | unlock
  | clearOpen
  | closeSocket
  deriving DecidableEq, Repr

/-- What is left to do behind a test that failed. -/
def Exit.rest : Exit → List Instr
  | leave => []
  | release => [.unlock]
  | shutdown => [.clearOpen, .closeSocket]

/-- The programs, by the function they come from. -/
inductive Kind
  /-- `send_data_frame` and `send_ping`. -/
  | send
  /-- `send_data_frame` when the compression fails. -/
  | unsent
  | close
  | pong
  | echo
  | fail
  | lost
  deriving DecidableEq, Repr

/-- What the reader does before it handles a frame: the tests of `read_loop` and
`read_one_frame`, and the read. -/
def awaitFrame : List Instr :=
  [.require .isOpen .leave, .require .notClosing .leave, .require .isOpen .leave, .receive]

namespace Kind

/-- The instructions of a function. -/
def program : Kind → List Instr
  | send => [.require .isOpen .leave, .build, .lock, .require .isOpen .release,
      .require .notClosing .release, .write, .unlock]
  | unsent => [.require .isOpen .leave]
  | close => [.require .isOpen .leave, .require .notClosing .leave, .setClosing, .build, .lock,
      .write, .unlock, .clearOpen, .closeSocket]
  | pong => awaitFrame ++ [.require .notClosing .leave, .require .isOpen .leave, .build, .lock,
      .require .notClosing .release, .require .isOpen .release, .write, .unlock]
  | echo => awaitFrame ++ [.build, .lock, .write, .unlock, .clearOpen]
  | fail => awaitFrame ++ [.require .isOpen .shutdown, .require .notClosing .shutdown, .setClosing,
      .build, .lock, .write, .unlock, .clearOpen, .closeSocket]
  | lost => awaitFrame ++ [.clearOpen]

/-- The functions that build a frame. -/
def builds : Kind → Bool
  | unsent | lost => false
  | _ => true

/-- The functions that write a CLOSE frame. -/
def closes : Kind → Bool
  | close | echo | fail => true
  | _ => false

/-- The places that a function can be at: what can be left of its instructions. -/
def positions (k : Kind) : List (List Instr) :=
  k.program.tails ++ [[.clearOpen, .closeSocket], [.clearOpen], [.closeSocket], [.unlock], []]

end Kind

/-- The function that does a job. -/
def Job.kind (e : Endpoint) : Job → Kind
  | sendText text fin _ =>
      if (compressed e .text text fin).isSome then .send else .unsent
  | sendBinary data fin _ => if (compressed e .binary data fin).isSome then .send else .unsent
  | sendContinuation data fin _ =>
      if (compressed e .continuation data fin).isSome then .send else .unsent
  | sendPing _ _ => .send
  | close _ _ _ => .close
  | pong _ _ => .pong
  | echo _ _ => .echo
  | fail _ _ _ => .fail
  | lost => .lost

/-! ## The system -/

/-- A call under way: the job, the instructions left, and whether it will have got through when it
returns.  A `std::error_code` is no error until something sets it. -/
structure Task where
  job : Job
  rest : List Instr
  ok : Bool

/-- The members of `connection::impl` that the threads share, the frames on the wire, what each
thread is doing, and the record of the calls that have returned, with whether they got through. -/
structure System (ι : Type) where
  isOpen : Bool
  isClosing : Bool
  socketOpen : Bool
  outboundFrame : List UInt8
  writeMutex : Option ι
  wire : List (List UInt8)
  thread : ι → Option Task
  returned : List (Job × Bool)

/-- A step of the system: a thread begins a job, does its next instruction, or returns.  A write
is `sent` or fails. -/
inductive Act (ι : Type)
  | start (t : ι) (job : Job)
  | run (t : ι) (sent : Bool)
  | finish (t : ι)

namespace System

variable {ι : Type} [DecidableEq ι] (e : Endpoint) (reader : ι)

/-- An open connection with nothing under way. -/
def opened : System ι where
  isOpen := true
  isClosing := false
  socketOpen := true
  outboundFrame := []
  writeMutex := none
  wire := []
  thread := fun _ => none
  returned := []

/-- The system with a thread at another place. -/
def put (s : System ι) (t : ι) (task : Option Task) : System ι :=
  { s with thread := Function.update s.thread t task }

/-- What a flag is. -/
def holds (s : System ι) : Flag → Bool
  | .isOpen => s.isOpen
  | .notClosing => !s.isClosing

/-- What is left after an instruction with `rest` behind it. -/
def next (s : System ι) (rest : List Instr) : Instr → List Instr
  | .require flag otherwise => if s.holds flag then rest else otherwise.rest
  | .receive => if s.socketOpen then rest else [.clearOpen]
  | _ => rest

/-- Whether a call still gets through after an instruction.  A test that fails makes it return
`not_open`, a read that fails leaves nothing to handle, and a write sets the error code. -/
def result (s : System ι) (sent ok : Bool) : Instr → Bool
  | .require flag _ => ok && s.holds flag
  | .receive => ok && s.socketOpen
  | .write => s.socketOpen && sent
  | _ => ok

/-- What an instruction does to the shared members. -/
def effect (s : System ι) (t : ι) (job : Job) (sent : Bool) : Instr → System ι
  | .setClosing => { s with isClosing := true }
  | .build => { s with outboundFrame := job.build e s.outboundFrame }
  | .lock => { s with writeMutex := some t }
  | .write =>
      if s.socketOpen && sent then { s with wire := s.wire ++ [s.outboundFrame] } else s
  | .unlock => { s with writeMutex := none }
  | .clearOpen => { s with isOpen := false }
  | .closeSocket => { s with socketOpen := false }
  | _ => s

/-- The instruction has to wait. -/
def blocked (s : System ι) : Instr → Bool
  | .lock => s.writeMutex.isSome
  | _ => false

/-- The system with a call on record. -/
def record (s : System ι) (job : Job) (ok : Bool) : System ι :=
  { s with returned := s.returned ++ [(job, ok)] }

/-- The steps of the system.  A job that builds no frame does not get through: the compression has
failed, or the read. -/
def step (s : System ι) : Act ι → Option (System ι)
  | .start t job =>
      if (s.thread t).isNone && (!job.byReader || t == reader) then
        some (s.put t (some ⟨job, (job.kind e).program, (job.kind e).builds⟩))
      else none
  | .run t sent =>
      match s.thread t with
      | some ⟨job, i :: rest, ok⟩ =>
          if s.blocked i then none
          else some ((s.effect e t job sent i).put t
            (some ⟨job, s.next rest i, s.result sent ok i⟩))
      | _ => none
  | .finish t =>
      match s.thread t with
      | some ⟨job, [], ok⟩ => some ((s.put t none).record job ok)
      | _ => none

/-- The frames of the calls that have returned success, and of the PINGs that were answered. -/
def succeeded (s : System ι) : List (List UInt8) :=
  s.returned.filterMap fun r => if r.2 then some (r.1.frame e) else none

end System

/-! ## Places -/

/-- The frame is built and not yet written. -/
def built (rest : List Instr) : Bool := rest.contains .write && !rest.contains .build

/-- The instruction may end the call early. -/
def Instr.mayLeave : Instr → Bool
  | require _ _ | receive => true
  | _ => false

/-- The frame is written and the call has not yet returned. -/
def Task.written (task : Task) : Bool := task.ok && !task.rest.contains .write

namespace Kind

/-- The instructions of a function with what follows each. -/
def transitions (k : Kind) : List (Instr × List Instr) :=
  k.positions.filterMap fun
    | [] => none
    | i :: rest => some (i, rest)

lemma mem_transitions {k : Kind} {i : Instr} {rest : List Instr} (h : i :: rest ∈ k.positions) :
    (i, rest) ∈ k.transitions := List.mem_filterMap.mpr ⟨i :: rest, h, rfl⟩

lemma rest_mem_positions {k : Kind} {i : Instr} {rest : List Instr}
    (h : i :: rest ∈ k.positions) : rest ∈ k.positions := by
  have table : ∀ x ∈ k.transitions, x.2 ∈ k.positions := by cases k <;> decide
  exact table _ (mem_transitions h)

lemma program_mem_positions (k : Kind) : k.program ∈ k.positions := by
  cases k <;> decide

lemma exit_mem_positions (k : Kind) (x : Exit) : x.rest ∈ k.positions := by
  cases k <;> cases x <;> decide

lemma clearOpen_mem_positions (k : Kind) : [.clearOpen] ∈ k.positions := by
  cases k <;> decide

lemma built_write {k : Kind} {rest : List Instr} (h : .write :: rest ∈ k.positions) :
    built (.write :: rest) = true ∧ built rest = false := by
  have table : ∀ x ∈ k.transitions, x.1 = .write →
      built (.write :: x.2) = true ∧ built x.2 = false := by
    cases k <;> decide
  exact table _ (mem_transitions h) rfl

lemma built_program (k : Kind) : built k.program = false := by
  cases k <;> decide

lemma write_mem_program {k : Kind} (h : k.builds = true) : k.program.contains .write = true := by
  cases k <;> first | decide | simp [builds] at h

lemma tail_of_write {k : Kind} {rest : List Instr} (h : .write :: rest ∈ k.positions) :
    k.builds = true ∧ rest ∈ k.program.tails ∧ rest.contains .write = false := by
  have table : ∀ x ∈ k.transitions, x.1 = .write →
      k.builds = true ∧ x.2 ∈ k.program.tails ∧ x.2.contains .write = false := by
    cases k <;> decide
  exact table _ (mem_transitions h) rfl

/-- Behind its write a function does not leave early any more. -/
lemma settled_of_written {k : Kind} (hk : k.builds = true) {i : Instr} {rest : List Instr}
    (h : i :: rest ∈ k.program.tails) (hwrite : (i :: rest).contains .write = false) :
    i.mayLeave = false := by
  have table : ∀ tail ∈ k.program.tails, tail.contains .write = false →
      ∀ i ∈ tail.head?, i.mayLeave = false := by
    cases k <;> simp only [builds, Bool.false_eq_true] at hk <;> decide
  exact table _ h hwrite i rfl

end Kind

lemma built_exit (x : Exit) : built x.rest = false := by
  cases x <;> rfl

lemma built_cons {i : Instr} {rest : List Instr} (hi : i ≠ .build) (h : built rest = true) :
    built (i :: rest) = true := by
  simp only [built, Bool.and_eq_true, Bool.not_eq_true', List.contains_cons, Bool.or_eq_true,
    Bool.or_eq_false_iff] at h ⊢
  exact ⟨.inr h.1, by simpa using hi.symm, h.2⟩

lemma Kind.ne_of_build {k : Kind} {rest : List Instr} (h : .build :: rest ∈ k.positions) :
    k ≠ .unsent ∧ k ≠ .lost := by
  have table : ∀ x ∈ k.transitions, x.1 = .build → k ≠ .unsent ∧ k ≠ .lost := by
    cases k <;> decide
  exact table _ (mem_transitions h) rfl

lemma Job.buildData_eq (e : Endpoint) {op : Opcode} {data : List UInt8} {fin : Bool} (key : Key)
    (out : List UInt8) (h : (compressed e op data fin).isSome = true) :
    buildData e op data fin key out = buildData e op data fin key [] := by
  obtain ⟨⟨payload, rsv1⟩, hsome⟩ := Option.isSome_iff_exists.mp h
  simp only [buildData, hsome, buildInto_eq]

/-- The frame does not depend on what the buffer held. -/
lemma Job.build_eq {e : Endpoint} {job : Job} (hsent : job.kind e ≠ .unsent)
    (hlost : job.kind e ≠ .lost) (out : List UInt8) : job.build e out = job.frame e := by
  have hdata : ∀ {c : Bool}, (if c then Kind.send else Kind.unsent) ≠ .unsent → c = true := by
    intro c
    cases c <;> simp
  cases job with
  | sendText text fin key => exact buildData_eq e key out (hdata hsent)
  | sendBinary data fin key => exact buildData_eq e key out (hdata hsent)
  | sendContinuation data fin key => exact buildData_eq e key out (hdata hsent)
  | sendPing data key => simp only [build, frame, buildInto_eq]
  | close code reason key => simp only [build, frame, buildCloseInto_eq]
  | pong payload key => simp only [build, frame, buildInto_eq]
  | echo code key => simp only [build, frame, buildCloseInto_eq]
  | fail code reason key => simp only [build, frame, buildCloseInto_eq]
  | lost => exact absurd rfl hlost

namespace System

variable {ι : Type} {e : Endpoint}

/-! ## Steps -/

@[simp] lemma effect_thread (s : System ι) (t : ι) (job : Job) (sent : Bool) (i : Instr) :
    (s.effect e t job sent i).thread = s.thread := by
  cases i <;> simp only [effect]
  split <;> rfl

lemma effect_outboundFrame (s : System ι) (t : ι) (job : Job) (sent : Bool) {i : Instr}
    (hi : i ≠ .build) : (s.effect e t job sent i).outboundFrame = s.outboundFrame := by
  cases i <;> simp only [effect, ne_eq, not_true_eq_false] at hi ⊢
  split <;> rfl

lemma effect_wire (s : System ι) (t : ι) (job : Job) (sent : Bool) {i : Instr} (hi : i ≠ .write) :
    (s.effect e t job sent i).wire = s.wire := by
  cases i <;> simp only [effect, ne_eq, not_true_eq_false] at hi ⊢

@[simp] lemma effect_returned (s : System ι) (t : ι) (job : Job) (sent : Bool) (i : Instr) :
    (s.effect e t job sent i).returned = s.returned := by
  cases i <;> simp only [effect]
  split <;> rfl

/-- An instruction that may not leave goes on to the next, and keeps the error code unless it
writes. -/
lemma goes_on {i : Instr} (s : System ι) (rest : List Instr) (sent ok : Bool)
    (h : i.mayLeave = false) :
    s.next rest i = rest ∧ (i ≠ .write → s.result sent ok i = ok) := by
  cases i <;> simp [Instr.mayLeave, next, result] at h ⊢

/-- A call that gets through has not left early. -/
lemma next_of_result {i : Instr} (rest : List Instr) {s : System ι} {sent ok : Bool}
    (h : s.result sent ok i = true) :
    s.next rest i = rest ∧ (i ≠ .write → ok = true) ∧
      (i = .write → (s.socketOpen && sent) = true) := by
  cases i with
  | require flag x =>
      rw [result, Bool.and_eq_true] at h
      exact ⟨by rw [next, if_pos h.2], fun _ => h.1, by simp⟩
  | receive =>
      rw [result, Bool.and_eq_true] at h
      exact ⟨by rw [next, if_pos h.2], fun _ => h.1, by simp⟩
  | write => exact ⟨rfl, by simp, fun _ => h⟩
  | _ => exact ⟨rfl, fun _ => h, by simp⟩

lemma next_mem_positions {k : Kind} {i : Instr} {rest : List Instr} (s : System ι)
    (h : i :: rest ∈ k.positions) : s.next rest i ∈ k.positions := by
  have hrest := Kind.rest_mem_positions h
  cases i <;> simp only [next, hrest]
  · split
    · exact hrest
    · exact Kind.exit_mem_positions k _
  · split
    · exact hrest
    · exact Kind.clearOpen_mem_positions k

lemma built_next {i : Instr} {rest : List Instr} (s : System ι) (hi : i ≠ .build)
    (h : built (s.next rest i) = true) : built (i :: rest) = true := by
  cases i <;> simp only [next] at h
  case require flag otherwise =>
    split at h
    · exact built_cons hi h
    · simp [built_exit] at h
  case receive =>
    split at h
    · exact built_cons hi h
    · simp [built] at h
  all_goals exact built_cons hi h

/-- The next instruction of a thread. -/
def nextInstr (s : System ι) (t : ι) : Option Instr := (s.thread t).bind fun task => task.rest.head?

lemma nextInstr_eq {s : System ι} {t : ι} {job : Job} {i : Instr} {rest : List Instr} {ok : Bool}
    (h : s.thread t = some ⟨job, i :: rest, ok⟩) : s.nextInstr t = some i := by
  rw [nextInstr, h]
  rfl

/-- The thread has built a frame and not yet written it. -/
def hasBuilt (s : System ι) (t : ι) : Bool := (s.thread t).any fun task => built task.rest

lemma hasBuilt_iff {s : System ι} {t : ι} :
    s.hasBuilt t = true ↔ ∃ task, s.thread t = some task ∧ built task.rest = true := by
  rw [hasBuilt, Option.any_eq_true]

/-- The thread has written its frame and not yet returned. -/
def hasWritten (s : System ι) (t : ι) : Bool := (s.thread t).any Task.written

variable (e) in
/-- The frame that the thread's call asks for. -/
def frameOf (s : System ι) (t : ι) : Option (List UInt8) :=
  (s.thread t).map fun task => task.job.frame e

variable [DecidableEq ι] {reader : ι}

/-- **The shape of a step.** -/
lemma step_cases {s s' : System ι} {a : Act ι} (h : s.step e reader a = some s') :
    (∃ t job, a = .start t job ∧ s.thread t = none ∧ (job.byReader = true → t = reader) ∧
        s' = s.put t (some ⟨job, (job.kind e).program, (job.kind e).builds⟩)) ∨
      (∃ t sent job i rest ok, a = .run t sent ∧ s.thread t = some ⟨job, i :: rest, ok⟩ ∧
        s.blocked i = false ∧
        s' = (s.effect e t job sent i).put t
          (some ⟨job, s.next rest i, s.result sent ok i⟩)) ∨
      ∃ t job ok, a = .finish t ∧ s.thread t = some ⟨job, [], ok⟩ ∧
        s' = (s.put t none).record job ok := by
  cases a with
  | start t job =>
      simp only [step] at h
      split_ifs at h with hc
      simp only [Bool.and_eq_true, Option.isNone_iff_eq_none, Bool.or_eq_true, Bool.not_eq_true',
        beq_iff_eq] at hc
      refine .inl ⟨t, job, rfl, hc.1, fun hr => ?_, (Option.some.inj h).symm⟩
      exact hc.2.resolve_left (by simp [hr])
  | run t sent =>
      simp only [step] at h
      split at h
      · rename_i job i rest ok ht
        split_ifs at h with hb
        exact .inr (.inl ⟨t, sent, job, i, rest, ok, rfl, ht, by simpa using hb,
          (Option.some.inj h).symm⟩)
      · simp at h
  | finish t =>
      simp only [step] at h
      split at h
      · rename_i job ok ht
        exact .inr (.inr ⟨t, job, ok, rfl, ht, (Option.some.inj h).symm⟩)
      · simp at h

lemma eq_some_of_update {s s' : System ι} {t u : ι} {x : Option Task} {task : Task}
    (hthread : s'.thread = Function.update s.thread t x) (h : s'.thread u = some task) :
    (u = t ∧ x = some task) ∨ (u ≠ t ∧ s.thread u = some task) := by
  rw [hthread] at h
  rcases eq_or_ne u t with rfl | hne
  · rw [Function.update_self] at h
    exact .inl ⟨rfl, h⟩
  · rw [Function.update_of_ne hne] at h
    exact .inr ⟨hne, h⟩

/-! ## Frames stay intact -/

/-- A thread builds a frame only if no other has built one and not yet written it. -/
def BuildsAlone (s : System ι) : Act ι → Prop
  | .run t _ => s.nextInstr t = some .build → ∀ u, u ≠ t → s.hasBuilt u = false
  | _ => True

/-- What holds as long as threads build alone: the buffer has the frame of the one thread that is
about to write. -/
structure Intact (e : Endpoint) (s : System ι) : Prop where
  positions : ∀ t task, s.thread t = some task → task.rest ∈ (task.job.kind e).positions
  /-- A call that gets through has not left its program. -/
  through : ∀ t task, s.thread t = some task → task.ok = true →
    (task.job.kind e).builds = true ∧ task.rest ∈ (task.job.kind e).program.tails
  unique : ∀ t u, s.hasBuilt t = true → s.hasBuilt u = true → t = u
  buffer : ∀ t task, s.thread t = some task → built task.rest = true →
    s.outboundFrame = task.job.frame e

/-- The thread has another place, where it may be. -/
structure Moved (e : Endpoint) (s s' : System ι) (t : ι) (x : Option Task) : Prop where
  thread : s'.thread = Function.update s.thread t x
  positions : ∀ task ∈ x, task.rest ∈ (task.job.kind e).positions
  through : ∀ task ∈ x, task.ok = true →
    (task.job.kind e).builds = true ∧ task.rest ∈ (task.job.kind e).program.tails

/-- Where the threads may be does not depend on the rest of the system. -/
lemma Intact.places {s s' : System ι} {t : ι} {x : Option Task} (h : Intact e s)
    (m : Moved e s s' t x) :
    (∀ u task, s'.thread u = some task → task.rest ∈ (task.job.kind e).positions) ∧
      ∀ u task, s'.thread u = some task → task.ok = true →
        (task.job.kind e).builds = true ∧ task.rest ∈ (task.job.kind e).program.tails := by
  refine ⟨fun u task hu => ?_, fun u task hu hok => ?_⟩
  · rcases eq_some_of_update m.thread hu with ⟨-, hx⟩ | ⟨-, hu⟩
    · exact m.positions task hx
    · exact h.positions u task hu
  · rcases eq_some_of_update m.thread hu with ⟨-, hx⟩ | ⟨-, hu⟩
    · exact m.through task hx hok
    · exact h.through u task hu hok

/-- A thread moves, begins or returns, and the buffer does not change. -/
lemma Intact.moved {s s' : System ι} {t : ι} {x : Option Task} (h : Intact e s)
    (m : Moved e s s' t x)
    (hbuilt : ∀ task ∈ x, built task.rest = true →
      ∃ old, s.thread t = some old ∧ old.job = task.job ∧ built old.rest = true)
    (hout : s'.outboundFrame = s.outboundFrame) : Intact e s' := by
  have hsub : ∀ u, s'.hasBuilt u = true → s.hasBuilt u = true := by
    intro u hub
    obtain ⟨task, hu, hb⟩ := hasBuilt_iff.mp hub
    rw [hasBuilt_iff]
    rcases eq_some_of_update m.thread hu with ⟨rfl, hx⟩ | ⟨-, hu⟩
    · obtain ⟨old, hold, -, hob⟩ := hbuilt task hx hb
      exact ⟨_, hold, hob⟩
    · exact ⟨task, hu, hb⟩
  refine ⟨(h.places m).1, (h.places m).2,
    fun u v hu hv => h.unique u v (hsub u hu) (hsub v hv), fun u task hu hb => ?_⟩
  rw [hout]
  rcases eq_some_of_update m.thread hu with ⟨rfl, hx⟩ | ⟨-, hu⟩
  · obtain ⟨old, hold, hjob, hob⟩ := hbuilt task hx hb
    rw [← hjob]
    exact h.buffer u old hold hob
  · exact h.buffer u task hu hb

/-- A thread builds its frame. -/
lemma Intact.build {s s' : System ι} {t : ι} {job : Job} {rest : List Instr} {ok ok' : Bool}
    (h : Intact e s) (ht : s.thread t = some ⟨job, .build :: rest, ok⟩)
    (halone : ∀ u, u ≠ t → s.hasBuilt u = false) (m : Moved e s s' t (some ⟨job, rest, ok'⟩))
    (hout : s'.outboundFrame = job.build e s.outboundFrame) : Intact e s' := by
  obtain ⟨hsent, hlost⟩ := Kind.ne_of_build (h.positions t _ ht)
  have honly : ∀ u task, s'.thread u = some task → built task.rest = true →
      u = t ∧ task = ⟨job, rest, ok'⟩ := by
    intro u task hu hb
    rcases eq_some_of_update m.thread hu with ⟨rfl, hx⟩ | ⟨hne, hu⟩
    · exact ⟨rfl, (Option.some.inj hx).symm⟩
    · have hbuilt := hasBuilt_iff.mpr ⟨task, hu, hb⟩
      simp [halone u hne] at hbuilt
  refine ⟨(h.places m).1, (h.places m).2, ?_, fun u task hu hb => ?_⟩
  · intro u v hub hvb
    obtain ⟨task, hu, hb⟩ := hasBuilt_iff.mp hub
    obtain ⟨task', hv, hb'⟩ := hasBuilt_iff.mp hvb
    rw [(honly u task hu hb).1, (honly v task' hv hb').1]
  · obtain ⟨rfl, rfl⟩ := honly u task hu hb
    rw [hout, Job.build_eq hsent hlost]

/-- The place of a thread after one of its instructions. -/
lemma Intact.moved_run {s : System ι} {t : ι} {job : Job} {i : Instr} {rest : List Instr}
    {ok : Bool} (h : Intact e s) (ht : s.thread t = some ⟨job, i :: rest, ok⟩) (sent : Bool) :
    Moved e s ((s.effect e t job sent i).put t (some ⟨job, s.next rest i, s.result sent ok i⟩)) t
      (some ⟨job, s.next rest i, s.result sent ok i⟩) := by
  have hpos := h.positions t _ ht
  refine ⟨by rw [put, effect_thread], ?_, ?_⟩
  · rintro task hx
    obtain rfl := Option.some.inj hx
    exact next_mem_positions s hpos
  · rintro task hx hok
    obtain rfl := Option.some.inj hx
    obtain ⟨hnext, hbefore, -⟩ := next_of_result rest hok
    simp only [hnext]
    by_cases hi : i = .write
    · subst hi
      exact ⟨(Kind.tail_of_write hpos).1, (Kind.tail_of_write hpos).2.1⟩
    · obtain ⟨hbuilds, htail⟩ := h.through t _ ht (hbefore hi)
      rw [List.mem_tails] at htail ⊢
      exact ⟨hbuilds, (List.suffix_cons i rest).trans htail⟩

/-- **One step** keeps the frame in the buffer that of the one thread that is about to write. -/
lemma Intact.step {s s' : System ι} {a : Act ι} (h : Intact e s) (halone : s.BuildsAlone a)
    (hstep : s.step e reader a = some s') : Intact e s' := by
  rcases step_cases hstep with ⟨t, job, rfl, -, -, rfl⟩ |
    ⟨t, sent, job, i, rest, ok, rfl, ht, -, rfl⟩ | ⟨t, job, ok, rfl, -, rfl⟩
  · refine h.moved (x := some ⟨job, (job.kind e).program, (job.kind e).builds⟩) ⟨rfl, ?_, ?_⟩ ?_ rfl
    · rintro task hx
      obtain rfl := Option.some.inj hx
      exact Kind.program_mem_positions _
    · rintro task hx hok
      obtain rfl := Option.some.inj hx
      exact ⟨hok, by simp⟩
    · rintro task hx hb
      obtain rfl := Option.some.inj hx
      simp [Kind.built_program] at hb
  · have m := h.moved_run ht sent
    by_cases hbuild : i = .build
    · subst hbuild
      exact h.build ht (halone (nextInstr_eq ht)) m rfl
    · refine h.moved m ?_ (effect_outboundFrame s t job sent hbuild)
      rintro task hx hb
      obtain rfl := Option.some.inj hx
      exact ⟨_, ht, rfl, built_next s hbuild hb⟩
  · exact h.moved (x := none) ⟨rfl, by simp, by simp⟩ (by simp) rfl

omit [DecidableEq ι] in
lemma intact_opened : Intact e (opened : System ι) := by
  exact ⟨by simp [opened], by simp [opened], by simp [opened, hasBuilt], by simp [opened]⟩

/-! ## What is on the wire -/

/-- The wire has the frames of the recorded successes, and of the calls that have written and not
yet returned. -/
def Accounted (e : Endpoint) (s : System ι) : Prop :=
  ∃ under : List ι, under.Nodup ∧ (∀ t, t ∈ under ↔ s.hasWritten t = true) ∧
    s.wire.Perm (s.succeeded e ++ under.filterMap (s.frameOf e))

lemma hasWritten_update {s s' : System ι} {t : ι} {x : Option Task}
    (hthread : s'.thread = Function.update s.thread t x) :
    s'.hasWritten t = x.any Task.written ∧
      ∀ u, u ≠ t → s'.hasWritten u = s.hasWritten u ∧ s'.frameOf e u = s.frameOf e u := by
  refine ⟨by rw [hasWritten, hthread, Function.update_self], fun u hne => ?_⟩
  rw [hasWritten, hasWritten, frameOf, frameOf, hthread, Function.update_of_ne hne]
  exact ⟨rfl, rfl⟩

/-- A thread moves, and has written afterwards what it had written before. -/
lemma Accounted.moved {s s' : System ι} {t : ι} {x : Option Task} (h : Accounted e s)
    (hthread : s'.thread = Function.update s.thread t x)
    (hwritten : x.any Task.written = s.hasWritten t)
    (hframe : s.hasWritten t = true → x.map (fun task => task.job.frame e) = s.frameOf e t)
    (hwire : s'.wire = s.wire) (hreturned : s'.succeeded e = s.succeeded e) : Accounted e s' := by
  obtain ⟨under, hnodup, hmem, hperm⟩ := h
  obtain ⟨hself, hothers⟩ := hasWritten_update (e := e) hthread
  have hsame : ∀ u, s'.hasWritten u = s.hasWritten u := by
    intro u
    by_cases hu : u = t
    · rw [hu, hself, hwritten]
    · exact (hothers u hu).1
  refine ⟨under, hnodup, fun u => by rw [hsame, hmem], ?_⟩
  rw [hwire, hreturned]
  refine hperm.trans (.append_left _ (.of_eq (List.filterMap_congr fun u hu => ?_)))
  by_cases hne : u = t
  · subst hne
    rw [← hframe ((hmem u).mp hu), frameOf, hthread, Function.update_self]
  · exact (hothers u hne).2.symm

/-- A thread writes its frame. -/
lemma Accounted.write {s s' : System ι} {t : ι} {task : Task} (h : Accounted e s)
    (hthread : s'.thread = Function.update s.thread t (some task))
    (hbefore : s.hasWritten t = false) (hafter : task.written = true)
    (hwire : s'.wire = s.wire ++ [task.job.frame e])
    (hreturned : s'.succeeded e = s.succeeded e) : Accounted e s' := by
  obtain ⟨under, hnodup, hmem, hperm⟩ := h
  obtain ⟨hself, hothers⟩ := hasWritten_update (e := e) hthread
  have hnot : t ∉ under := by simp [hmem, hbefore]
  refine ⟨under ++ [t], ?_, fun u => ?_, ?_⟩
  · rw [List.nodup_append]
    exact ⟨hnodup, List.nodup_singleton t, fun u hu v hv => by
      rintro rfl
      exact hnot (List.mem_singleton.mp hv ▸ hu)⟩
  · by_cases hu : u = t
    · simp [hu, hself, hafter]
    · simp [hu, (hothers u hu).1, hmem]
  · have hold : under.filterMap (s'.frameOf e) = under.filterMap (s.frameOf e) :=
      List.filterMap_congr fun u hu => (hothers u fun hut => hnot (hut ▸ hu)).2
    have hnew : s'.frameOf e t = some (task.job.frame e) := by
      rw [frameOf, hthread, Function.update_self]
      rfl
    rw [hwire, hreturned, List.filterMap_append, hold, ← List.append_assoc]
    simpa [hnew] using hperm.append_right [task.job.frame e]

/-- A thread that has written returns. -/
lemma Accounted.finish {s s' : System ι} {t : ι} {task : Task} (h : Accounted e s)
    (ht : s.thread t = some task) (hwritten : task.written = true)
    (hthread : s'.thread = Function.update s.thread t none) (hwire : s'.wire = s.wire)
    (hreturned : s'.succeeded e = s.succeeded e ++ [task.job.frame e]) : Accounted e s' := by
  obtain ⟨under, hnodup, hmem, hperm⟩ := h
  obtain ⟨hself, hothers⟩ := hasWritten_update (e := e) hthread
  have hin : t ∈ under := (hmem t).mpr (by rw [hasWritten, ht]; exact hwritten)
  refine ⟨under.erase t, hnodup.erase t, fun u => ?_, ?_⟩
  · by_cases hu : u = t
    · subst hu
      simp [hself, hnodup.not_mem_erase]
    · rw [List.mem_erase_of_ne hu, (hothers u hu).1, hmem]
  · have hold : (under.erase t).filterMap (s'.frameOf e) =
        (under.erase t).filterMap (s.frameOf e) := by
      refine List.filterMap_congr fun u hu => (hothers u ?_).2
      rintro rfl
      exact hnodup.not_mem_erase hu
    have hframe : s.frameOf e t = some (task.job.frame e) := by
      rw [frameOf, ht]
      rfl
    have hsplit := (List.perm_cons_erase hin).filterMap (s.frameOf e)
    rw [List.filterMap_cons, hframe] at hsplit
    rw [hwire, hreturned, hold, List.append_assoc]
    exact hperm.trans (.append_left _ hsplit)

/-- **One step** keeps the account: a call counts from its write to its return as written, and then
as recorded. -/
lemma Accounted.step {s s' : System ι} {a : Act ι} (h : Accounted e s) (hintact : Intact e s)
    (hstep : s.step e reader a = some s') : Accounted e s' := by
  rcases step_cases hstep with ⟨t, job, rfl, ht, -, rfl⟩ |
    ⟨t, sent, job, i, rest, ok, rfl, ht, -, rfl⟩ | ⟨t, job, ok, rfl, ht, rfl⟩
  · -- a call that begins has not written
    have hnone : s.hasWritten t = false := by
      rw [hasWritten, ht]
      rfl
    refine h.moved (x := some ⟨job, (job.kind e).program, (job.kind e).builds⟩) rfl ?_
      (by simp [hnone]) rfl rfl
    rw [hnone, Option.any_some, Task.written]
    cases hb : (job.kind e).builds with
    | false => rfl
    | true =>
        rw [Kind.write_mem_program hb]
        rfl
  · have hpos := hintact.positions t _ ht
    have hthread := (hintact.moved_run ht sent).thread
    have hbefore : s.hasWritten t = Task.written ⟨job, i :: rest, ok⟩ := by
      rw [hasWritten, ht]
      rfl
    have hreturned : ((s.effect e t job sent i).put t
        (some ⟨job, s.next rest i, s.result sent ok i⟩)).succeeded e = s.succeeded e := by
      simp only [succeeded, put, effect_returned]
    by_cases hi : i = .write
    · subst hi
      have hnot : s.hasWritten t = false := by
        rw [hbefore, Task.written]
        simp
      cases hsent : s.socketOpen && sent with
      | true =>
          -- the frame that goes out is the thread's own
          refine h.write hthread hnot ?_ ?_ hreturned
          · show (s.socketOpen && sent && !rest.contains .write) = true
            rw [hsent, (Kind.tail_of_write hpos).2.2]
            rfl
          · simp only [put, effect, hsent, if_true]
            rw [hintact.buffer t _ ht (Kind.built_write hpos).1]
      | false =>
          refine h.moved hthread ?_ (by simp [hnot]) ?_ hreturned
          · simp [hnot, Task.written, result, hsent]
          · simp only [put, effect, hsent, Bool.false_eq_true, if_false]
    · refine h.moved hthread ?_ (fun _ => by rw [frameOf, ht]; rfl) (effect_wire s t job sent hi)
        hreturned
      rw [hbefore, Option.any_some, Bool.eq_iff_iff]
      simp only [Task.written, Bool.and_eq_true, Bool.not_eq_true']
      have hcons : (i :: rest).contains .write = rest.contains .write := by
        simpa using fun h => absurd h.symm hi
      constructor
      · rintro ⟨hok, hrest⟩
        obtain ⟨hnext, hkept, -⟩ := next_of_result rest hok
        exact ⟨hkept hi, by rw [hcons, ← hrest, hnext]⟩
      · rintro ⟨rfl, hrest⟩
        obtain ⟨hbuilds, htail⟩ := hintact.through t _ ht rfl
        obtain ⟨hnext, hkept⟩ := s.goes_on rest sent true
          (Kind.settled_of_written hbuilds htail hrest)
        exact ⟨hkept hi, by rw [hnext, ← hcons, hrest]⟩
  · have hwritten : s.hasWritten t = ok := by
      rw [hasWritten, ht, Option.any_some, Task.written]
      simp
    cases hok : ok with
    | true =>
        refine h.finish ht (by simp [Task.written, hok]) rfl rfl ?_
        simp [succeeded, record, put]
    | false =>
        refine h.moved (x := none) rfl (by simp [hwritten, hok]) (by simp [hwritten, hok]) rfl ?_
        simp [succeeded, record, put]

omit [DecidableEq ι] in
lemma accounted_opened : Accounted e (opened : System ι) :=
  ⟨[], .nil, by simp [hasWritten, opened], by simp [succeeded, opened]⟩

/-- **Frames are not lost, duplicated or mixed up.**  In every run in which each thread builds its
frame only while no other has built one and not yet written it, the frames on the wire are those of
the calls that have returned success, of the PINGs that were answered, and of the calls that have
written and not yet returned, each once and each with its own content.  When no call is under way,
they are those on record. -/
theorem frames_intact (e : Endpoint) (reader : ι) (s : System ι)
    (hrun : Runs (step e reader) BuildsAlone opened s) :
    (∃ under : List ι, under.Nodup ∧ (∀ t, t ∈ under ↔ s.hasWritten t = true) ∧
      s.wire.Perm (s.succeeded e ++ under.filterMap (s.frameOf e))) ∧
    ((∀ t, s.thread t = none) → s.wire.Perm (s.succeeded e)) := by
  have hboth : Intact e s ∧ Accounted e s := by
    refine hrun.invariant (I := fun s => Intact e s ∧ Accounted e s)
      ⟨intact_opened, accounted_opened⟩ ?_
    rintro s a s' ⟨hintact, haccounted⟩ halone hstep
    exact ⟨hintact.step halone hstep, haccounted.step hintact hstep⟩
  refine ⟨hboth.2, fun hidle => ?_⟩
  obtain ⟨under, -, hmem, hperm⟩ := hboth.2
  have hnil : under = [] := by
    rw [List.eq_nil_iff_forall_not_mem]
    intro t ht
    have hwritten := (hmem t).mp ht
    simp [hasWritten, hidle t] at hwritten
  rw [hnil, List.filterMap_nil, List.append_nil] at hperm
  exact hperm

instance [Fintype ι] (s : System ι) (a : Act ι) : Decidable (s.BuildsAlone a) :=
  match a with
  | .start _ _ => inferInstanceAs (Decidable True)
  | .run t _ =>
      inferInstanceAs (Decidable (s.nextInstr t = some .build → ∀ u, u ≠ t → s.hasBuilt u = false))
  | .finish _ => inferInstanceAs (Decidable True)

end System

/-- A server. -/
def plainEndpoint : Endpoint := ⟨plainPlatform, .server, false⟩

/-- So many instructions of a thread, with writes succeeding. -/
def runs {ι : Type} (t : ι) (n : ℕ) : List (Act ι) := List.replicate n (.run t true)

/-- A thread sends `A`, and then the reader answers a ping. -/
theorem frames_intact_sequential :
    ∃ s : System Bool,
      play (System.step plainEndpoint true) .opened
        (.start false (.sendText [0x41] true Key.zero) :: runs false 7 ++ .finish false ::
          .start true (.pong [0x07] Key.zero) :: runs true 12 ++ [.finish true]) = some s ∧
      s.wire = [[0x81, 0x01, 0x41], [0x8a, 0x01, 0x07]] ∧
      s.returned.map (fun r => r.2) = [true, true] ∧ s.wire.Perm (s.succeeded plainEndpoint) := by
  have hplay : (play (System.step plainEndpoint true) .opened
      (.start false (.sendText [0x41] true Key.zero) :: runs false 7 ++ .finish false ::
        .start true (.pong [0x07] Key.zero) :: runs true 12 ++ [.finish true])).map
        (fun s => (s.wire, s.returned.map (fun r => r.2), (s.thread false).isNone,
          (s.thread true).isNone)) =
        some ([[0x81, 0x01, 0x41], [0x8a, 0x01, 0x07]], [true, true], true, true) := by
    decide +kernel
  obtain ⟨s, hs, heq⟩ := Option.map_eq_some_iff.mp hplay
  simp only [Prod.mk.injEq, Option.isNone_iff_eq_none] at heq
  obtain ⟨hwire, hreturned, hfirst, hsecond⟩ := heq
  refine ⟨s, hs, hwire, hreturned, (System.frames_intact plainEndpoint true s ?_).2 ?_⟩
  · exact runs_of_play (D := fun s a => decide (s.BuildsAlone a)) _
      (fun s a h => of_decide_eq_true h) _ hs (by decide +kernel)
  · rintro (_ | _)
    · exact hfirst
    · exact hsecond

/-- Two threads send `A` and `B`; the second builds its frame before the first has written.  Both
calls return success. -/
theorem frames_mixed_up :
    ∃ s : System (Fin 3),
      play (System.step plainEndpoint 2) .opened
        (.start 0 (.sendText [0x41] true Key.zero) :: runs 0 2 ++
          .start 1 (.sendText [0x42] true Key.zero) :: runs 1 2 ++ runs 0 5 ++ runs 1 5 ++
          [.finish 0, .finish 1]) = some s ∧
      (∀ t, (s.thread t).isNone = true) ∧ s.returned.map (fun r => r.2) = [true, true] ∧
      s.wire = [[0x81, 0x01, 0x42], [0x81, 0x01, 0x42]] ∧
      s.succeeded plainEndpoint = [[0x81, 0x01, 0x41], [0x81, 0x01, 0x42]] ∧
      ¬s.wire.Perm (s.succeeded plainEndpoint) := by
  have hplay : (play (System.step plainEndpoint (2 : Fin 3)) .opened
      (.start 0 (.sendText [0x41] true Key.zero) :: runs 0 2 ++
        .start 1 (.sendText [0x42] true Key.zero) :: runs 1 2 ++ runs 0 5 ++ runs 1 5 ++
        [.finish 0, .finish 1])).map
        (fun s => (decide (∀ t, (s.thread t).isNone = true), s.returned.map (fun r => r.2), s.wire,
          s.succeeded plainEndpoint)) =
        some (true, [true, true], [[0x81, 0x01, 0x42], [0x81, 0x01, 0x42]],
          [[0x81, 0x01, 0x41], [0x81, 0x01, 0x42]]) := by
    decide +kernel
  obtain ⟨s, hs, heq⟩ := Option.map_eq_some_iff.mp hplay
  simp only [Prod.mk.injEq, decide_eq_true_eq] at heq
  obtain ⟨hidle, hreturned, hwire, hsucceeded⟩ := heq
  refine ⟨s, hs, hidle, hreturned, hwire, hsucceeded, ?_⟩
  rw [hwire, hsucceeded]
  decide

end Wscpp.Cpp
