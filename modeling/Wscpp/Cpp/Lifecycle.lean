import Wscpp.Cpp.Threads

/-!
# The callbacks of a wscpp connection

A connection that has been open should tell its handler once that it is closed.  There are four ways
out of the open state: `close`, `fail_with_close`, `handle_close_frame`, and a read that fails.  The
first three call `on_close`, the fourth does not; and they can meet, on two threads or on one, where
a handler calls `close`.

The functions are programs again, as in `Wscpp.Cpp.Threads`, this time with the callbacks.  A thread
is a stack: below a callback the function that invoked it, above it the calls that the handler
makes.  What frames are built and written is in `Wscpp.Cpp.Threads`; here a write only takes its
turn.

A function that cannot return any more without calling `on_close` is `due`.  This file says what
follows when functions become due one at a time (`Once`): as long as

* a function becomes due only while `is_open_` is set and no other is due, on any thread or below it
  on the same one,
* the reader, when a read has failed, clears `is_open_` only if a function is due or it is clear
  already

(`Settled`), at most one is due, it clears `is_open_` before it calls `on_close`, and then none is
due any more.  Which events and which schedules make it so is in `Wscpp.Cpp.OnClose`.
-/

namespace Wscpp.Cpp.Lifecycle

open Moves

/-! ## Programs -/

/-- The callbacks of the application. -/
inductive Callback
  | onOpen
  | onMessage
  | onError
  | onClose
  deriving DecidableEq, Repr

/-- Where a function goes on when a flag is not as it should be. -/
inductive Exit
  /-- It returns. -/
  | leave
  /-- It returns and releases the mutex. -/
  | release
  /-- `handle_ping_frame` returns to `read_one_frame`. -/
  | back
  /-- The same, and it releases the mutex. -/
  | releaseBack
  /-- `read_loop` ends. -/
  | quit
  /-- `fail_with_close` goes on behind the `if`. -/
  | shutdown
  deriving DecidableEq, Repr

/-- The atomic steps of the functions. -/
inductive Instr
  | require (flag : Flag) (otherwise : Exit)
  /-- The blocking read of `read_one_frame`. -/
  | receive
  | setClosing
  | lock
  | write
  /-- The write of a pong, whose failure is reported to `on_error`. -/
  | reply
  | unlock
  | clearOpen
  | closeSocket
  /-- `join_reader_if_needed`. -/
  | join
  /-- `start_reader_thread`. -/
  | startReader
  /-- The reader thread ends. -/
  | quit
  | invoke (callback : Callback)
  deriving DecidableEq, Repr

/-- What is left to do behind a test that failed. -/
def Exit.rest : Exit → List Instr
  | leave => []
  | release => [.unlock]
  | back => [.require .isOpen .quit]
  | releaseBack => [.unlock, .require .isOpen .quit]
  | quit => [.quit]
  | shutdown => [.clearOpen, .closeSocket, .invoke .onClose, .require .isOpen .quit]

/-- The calls that the application makes on a connection that is open.  `start_reading`, `activate`
and `connect`, which begin a session or its reader, are not among them. -/
inductive Call
  /-- `send_data_frame` and `send_ping`. -/
  | send
  /-- `send_data_frame` when the compression fails. -/
  | unsent
  | close
  deriving DecidableEq, Repr

/-- The instructions of a call. -/
def Call.program : Call → List Instr
  | send => [.require .isOpen .leave, .lock, .require .isOpen .release,
      .require .notClosing .release, .write, .unlock]
  | unsent => [.require .isOpen .leave]
  | close => [.require .isOpen .leave, .require .notClosing .leave, .setClosing, .lock, .write,
      .unlock, .clearOpen, .closeSocket, .join, .invoke .onClose]

/-- `open_and_start_reader`, behind `is_open_ = true`. -/
def opening : List Instr := [.invoke .onOpen, .startReader]

/-- A turn of `read_loop`, up to the read. -/
def turn : List Instr :=
  [.require .isOpen .quit, .require .notClosing .quit, .require .isOpen .quit, .receive]

/-- What the reader is given. -/
inductive Arrival
  /-- A frame that completes a message. -/
  | message
  /-- A pong, or a frame that does not complete a message. -/
  | silent
  | ping
  | close
  /-- A frame, or a message, that fails a check. -/
  | violation
  /-- The read fails, at whatever byte. -/
  | lost
  deriving DecidableEq, Repr

/-- What `read_one_frame` does about it. -/
def Arrival.handling : Arrival → List Instr
  | message => [.invoke .onMessage, .require .isOpen .quit]
  | silent => [.require .isOpen .quit]
  | ping => [.require .notClosing .back, .require .isOpen .back, .lock,
      .require .notClosing .releaseBack, .require .isOpen .releaseBack, .reply, .unlock,
      .require .isOpen .quit]
  | close => [.lock, .write, .unlock, .clearOpen, .invoke .onClose, .require .isOpen .quit]
  | violation => [.invoke .onError, .require .isOpen .shutdown, .require .notClosing .shutdown,
      .setClosing, .lock, .write, .unlock, .clearOpen, .closeSocket, .invoke .onClose,
      .require .isOpen .quit]
  | lost => [.invoke .onError, .clearOpen, .quit]

/-! ## The system -/

/-- An entry of the stack of a thread: a function with the instructions left, or a handler of the
application. -/
inductive Frame
  | code (rest : List Instr)
  | handler
  deriving DecidableEq, Repr

/-- The members of `connection::impl` that matter here, how often `on_close` was called, and the
stack of each thread. -/
structure System (ι : Type) where
  isOpen : Bool
  isClosing : Bool
  socketOpen : Bool
  writeMutex : Option ι
  reading : Bool
  closes : ℕ
  stack : ι → List Frame

/-- A step of the system: a thread calls a function, from outside the library or in a handler; the
reader begins a turn; a thread does its next instruction, in which a read gives what it gives and a
write may fail; a function or a handler returns. -/
inductive Act (ι : Type)
  | call (t : ι) (call : Call)
  | turn
  | run (t : ι) (arrival : Arrival) (ok : Bool)
  | ret (t : ι)

namespace System

variable {ι : Type} [DecidableEq ι] (opener reader : ι)

/-- The connection has just become open. -/
def opened : System ι where
  isOpen := true
  isClosing := false
  socketOpen := true
  writeMutex := none
  reading := false
  closes := 0
  stack := Function.update (fun _ => []) opener [.code opening]

/-- The system with another stack for a thread. -/
def put (s : System ι) (t : ι) (stack : List Frame) : System ι :=
  { s with stack := Function.update s.stack t stack }

/-- What a flag is. -/
def holds (s : System ι) : Flag → Bool
  | .isOpen => s.isOpen
  | .notClosing => !s.isClosing

/-- What is left after an instruction with `rest` behind it. -/
def next (s : System ι) (arrival : Arrival) (ok : Bool) (rest : List Instr) : Instr → List Instr
  | .require flag otherwise => if s.holds flag then rest else otherwise.rest
  | .receive => if s.socketOpen then arrival.handling else Arrival.lost.handling
  | .reply => if s.socketOpen && ok then rest else .invoke .onError :: rest
  | _ => rest

/-- What an instruction does to the members. -/
def effect (s : System ι) (t : ι) : Instr → System ι
  | .setClosing => { s with isClosing := true }
  | .lock => { s with writeMutex := some t }
  | .unlock => { s with writeMutex := none }
  | .clearOpen => { s with isOpen := false }
  | .closeSocket => { s with socketOpen := false }
  | .startReader => { s with reading := s.isOpen }
  | .quit => { s with reading := false }
  | .invoke .onClose => { s with closes := s.closes + 1 }
  | _ => s

/-- The instruction has to wait. -/
def blocked (s : System ι) (t : ι) : Instr → Bool
  | .lock => s.writeMutex.isSome
  | .join => s.reading && !decide (t = reader)
  | _ => false

/-- What an instruction puts on the stack. -/
def entered : Instr → List Frame
  | .invoke _ => [.handler]
  | _ => []

/-- The steps of the system. -/
def step (s : System ι) : Act ι → Option (System ι)
  | .call t call =>
      match s.stack t with
      | [] => if t = reader then none else some (s.put t [.code call.program])
      | .handler :: below => some (s.put t (.code call.program :: .handler :: below))
      | _ => none
  | .turn =>
      match s.stack reader with
      | [] => if s.reading then some (s.put reader [.code turn]) else none
      | _ => none
  | .run t arrival ok =>
      match s.stack t with
      | .code (i :: rest) :: below =>
          if s.blocked reader t i then none
          else some ((s.effect t i).put t
            (entered i ++ .code (s.next arrival ok rest i) :: below))
      | _ => none
  | .ret t =>
      match s.stack t with
      | .code [] :: below => some (s.put t below)
      | .handler :: below => some (s.put t below)
      | _ => none

end System

/-! ## Places

A program is judged by what every way through it does: it calls `on_close` (`due`), and it clears
`is_open_` before (`clears`). -/

/-- The way out leads to a call of `on_close`. -/
def Exit.due : Exit → Bool
  | shutdown => true
  | _ => false

/-- The function cannot return without calling `on_close`. -/
def due : List Instr → Bool
  | [] => false
  | .invoke .onClose :: _ => true
  | .require _ x :: rest => due rest && x.due
  | .receive :: _ => false
  | _ :: rest => due rest

/-- The function clears `is_open_` before it calls `on_close`. -/
def clears : List Instr → Bool
  | [] => false
  | .clearOpen :: _ => true
  | .invoke .onClose :: _ => false
  | .require _ x :: rest => clears rest && x.due
  | .receive :: _ => false
  | _ :: rest => clears rest

/-- The function calls `on_close` at most once, and where it becomes due it is going to clear
`is_open_`. -/
def regular : List Instr → Bool
  | [] => true
  | .invoke .onClose :: rest => !due rest && regular rest
  | .require _ _ :: rest => (!due rest || clears rest) && regular rest
  | _ :: rest => regular rest

lemma Exit.due_rest (x : Exit) : Lifecycle.due x.rest = x.due := by
  cases x <;> rfl

lemma Exit.facts (x : Exit) : regular x.rest = true ∧ clears x.rest = x.due := by
  cases x <;> decide

lemma Arrival.facts (a : Arrival) : regular a.handling = true ∧
    (due a.handling = true → clears a.handling = true) := by
  cases a <;> decide

lemma Call.facts (c : Call) : regular c.program = true ∧ due c.program = false := by
  cases c <;> decide

namespace System

variable {ι : Type} {s s' : System ι} {arrival : Arrival} {ok : Bool} {i : Instr}
  {rest : List Instr}

/-- A function that is due stays so until it calls `on_close`. -/
lemma due_next (hi : i ≠ .invoke .onClose) (h : due (i :: rest) = true) :
    due (s.next arrival ok rest i) = true := by
  cases i with
  | require flag x =>
      simp only [due, Bool.and_eq_true] at h
      simp only [next]
      split
      · exact h.1
      · rw [x.due_rest]
        exact h.2
  | receive => simp [due] at h
  | reply =>
      simp only [next]
      split
      · exact h
      · exact h
  | invoke callback =>
      cases callback with
      | onClose => exact absurd rfl hi
      | _ => exact h
  | _ => exact h

/-- A regular function stays regular, and is not due behind its call of `on_close`. -/
lemma regular_next (h : regular (i :: rest) = true) :
    regular (s.next arrival ok rest i) = true ∧
      (i = .invoke .onClose → due (s.next arrival ok rest i) = false) := by
  cases i with
  | require flag x =>
      simp only [regular, Bool.and_eq_true] at h
      simp only [next]
      split
      · exact ⟨h.2, by simp⟩
      · exact ⟨x.facts.1, by simp⟩
  | receive =>
      simp only [next]
      split
      · exact ⟨arrival.facts.1, by simp⟩
      · exact ⟨Arrival.lost.facts.1, by simp⟩
  | reply =>
      simp only [next]
      split
      · exact ⟨h, by simp⟩
      · exact ⟨h, by simp⟩
  | invoke callback =>
      cases callback with
      | onClose =>
          simp only [regular, Bool.and_eq_true, Bool.not_eq_true'] at h
          exact ⟨h.2, fun _ => h.1⟩
      | _ => exact ⟨h, by simp⟩
  | _ => exact ⟨h, by simp⟩

/-- A function that is due and still has to clear `is_open_` clears it now, or has to. -/
lemma clears_next (hi : i ≠ .clearOpen) (hdue : due (i :: rest) = true)
    (h : clears (i :: rest) = true) : clears (s.next arrival ok rest i) = true := by
  cases i with
  | require flag x =>
      simp only [clears, Bool.and_eq_true] at h
      simp only [next]
      split
      · exact h.1
      · rw [x.facts.2]
        exact h.2
  | receive => simp [due] at hdue
  | reply =>
      simp only [next]
      split
      · exact h
      · exact h
  | invoke callback =>
      cases callback with
      | onClose => simp [clears] at h
      | _ => exact h
  | clearOpen => exact absurd rfl hi
  | _ => exact h

/-- A function that becomes due is going to clear `is_open_`. -/
lemma clears_of_commit (hreg : regular (i :: rest) = true) (hdue : due (i :: rest) = false)
    (h : due (s.next arrival ok rest i) = true) : clears (s.next arrival ok rest i) = true := by
  cases i with
  | require flag x =>
      simp only [regular, Bool.and_eq_true, Bool.or_eq_true, Bool.not_eq_true'] at hreg
      simp only [next] at h ⊢
      split_ifs at h ⊢
      · exact hreg.1.resolve_left (by simp [h])
      · rw [x.facts.2, ← x.due_rest]
        exact h
  | receive =>
      simp only [next] at h ⊢
      split_ifs at h ⊢
      · exact arrival.facts.2 h
      · exact Arrival.lost.facts.2 h
  | reply =>
      have hsame : due (s.next arrival ok rest .reply) = due rest := by
        simp only [next]
        split <;> rfl
      exact absurd (hsame.symm.trans h) (Bool.eq_false_iff.mp hdue)
  | invoke callback =>
      cases callback with
      | onClose => simp [due] at hdue
      | _ => exact absurd h (Bool.eq_false_iff.mp hdue)
  | _ => exact absurd h (Bool.eq_false_iff.mp hdue)

end System

/-! ## What is due -/

/-- The entry is a function that is due. -/
def Frame.due : Frame → Bool
  | code rest => Lifecycle.due rest
  | handler => false

/-- The instructions left of an entry. -/
def Frame.rest : Frame → List Instr
  | code rest => rest
  | handler => []

namespace System

variable {ι : Type}

/-- How many functions of a thread are due. -/
def pending (s : System ι) (t : ι) : ℕ := (s.stack t).countP Frame.due

/-- The next instruction of the thread makes its function due. -/
def commits (s : System ι) (t : ι) (arrival : Arrival) (ok : Bool) : Bool :=
  match s.stack t with
  | .code (i :: rest) :: _ => !due (i :: rest) && due (s.next arrival ok rest i)
  | _ => false

/-- The thread is about to clear `is_open_` in a function that is not due, after a failed read. -/
def strays (s : System ι) (t : ι) : Bool :=
  match s.stack t with
  | .code (.clearOpen :: rest) :: _ => !due rest
  | _ => false

/-- A function becomes due only while the connection is open and no other is due; after a failed
read `is_open_` is cleared only if a function is due, or it is clear already. -/
def Settled (s : System ι) : Act ι → Prop
  | .run t arrival ok =>
      (s.commits t arrival ok = true → s.isOpen = true ∧ ∀ u, s.pending u = 0) ∧
        (s.strays t = true → s.isOpen = false ∨ ∃ u, s.pending u ≠ 0)
  | _ => True

/-! ## The invariant -/

/-- What holds as long as functions become due one at a time. -/
structure Once (s : System ι) : Prop where
  regular : ∀ t, ∀ f ∈ s.stack t, Lifecycle.regular f.rest = true
  single : ∀ t, s.pending t ≤ 1
  alone : ∀ t u, s.pending t ≠ 0 → s.pending u ≠ 0 → t = u
  /-- `on_close` has not been called, or it was and all is over. -/
  called : s.closes = 0 ∨ (s.closes = 1 ∧ s.isOpen = false ∧ ∀ t, s.pending t = 0)
  /-- A connection that is not open has called `on_close`, or will. -/
  closed : s.isOpen = false → s.closes = 1 ∨ ∃ t, s.pending t ≠ 0
  /-- Before `on_close` is called `is_open_` is cleared. -/
  cleared : ∀ t, ∀ f ∈ s.stack t, f.due = true → clears f.rest = true ∨ s.isOpen = false

variable [DecidableEq ι] {s s' : System ι} {t : ι}

/-- What holds of the entries of all threads after one has moved. -/
lemma forall_of_update {P : Frame → Prop} {stack : List Frame}
    (hstack : s'.stack = Function.update s.stack t stack) (hnew : ∀ f ∈ stack, P f)
    (hold : ∀ u, u ≠ t → ∀ f ∈ s.stack u, P f) (u : ι) : ∀ f ∈ s'.stack u, P f := by
  intro f hf
  rw [hstack] at hf
  rcases eq_or_ne u t with rfl | hne
  · rw [Function.update_self] at hf
    exact hnew f hf
  · rw [Function.update_of_ne hne] at hf
    exact hold u hne f hf

/-- The invariant depends on a thread that has moved through what is due on it. -/
lemma Once.put {stack : List Frame} (h : s.Once)
    (hstack : s'.stack = Function.update s.stack t stack)
    (hregular : ∀ f ∈ stack, Lifecycle.regular f.rest = true)
    (hpending : stack.countP Frame.due = s.pending t)
    (hcleared : ∀ f ∈ stack, f.due = true → clears f.rest = true ∨ s'.isOpen = false)
    (hcloses : s'.closes = s.closes)
    (hopen : s'.isOpen = s.isOpen ∨ (s'.isOpen = false ∧ (s.isOpen = false ∨
      ∃ u, s.pending u ≠ 0))) : s'.Once := by
  have hsame : s'.pending = s.pending := by
    funext u
    rcases eq_or_ne u t with rfl | hne
    · rw [pending, hstack, Function.update_self, hpending]
    · rw [pending, hstack, Function.update_of_ne hne, pending]
  have hmono : s.isOpen = false → s'.isOpen = false := by
    intro hfalse
    rcases hopen with heq | ⟨heq, -⟩
    · rw [heq, hfalse]
    · exact heq
  refine ⟨forall_of_update hstack hregular fun u _ => h.regular u, by rw [hsame]; exact h.single,
    by rw [hsame]; exact h.alone, ?_, ?_,
    forall_of_update hstack hcleared fun u _ f hf hdue => (h.cleared u f hf hdue).imp id hmono⟩
  · rw [hcloses, hsame]
    exact h.called.imp id fun ⟨h1, h2, h3⟩ => ⟨h1, hmono h2, h3⟩
  · intro hfalse
    rw [hcloses, hsame]
    rcases hopen with heq | ⟨-, hold | hdue⟩
    · exact h.closed (heq ▸ hfalse)
    · exact h.closed hold
    · exact .inr hdue

omit [DecidableEq ι] in
@[simp] lemma effect_stack (s : System ι) (t : ι) (i : Instr) :
    (s.effect t i).stack = s.stack := by
  unfold effect
  split <;> rfl

omit [DecidableEq ι] in
lemma effect_isOpen (s : System ι) (t : ι) {i : Instr} (hi : i ≠ .clearOpen) :
    (s.effect t i).isOpen = s.isOpen := by
  unfold effect
  split <;> first | rfl | exact absurd rfl hi

omit [DecidableEq ι] in
lemma effect_closes (s : System ι) (t : ι) {i : Instr} (hi : i ≠ .invoke .onClose) :
    (s.effect t i).closes = s.closes := by
  unfold effect
  split <;> first | rfl | exact absurd rfl hi

section Run

/-! One instruction of thread `t`. -/

variable (arrival : Arrival) (ok : Bool) {i : Instr} {rest : List Instr} {below : List Frame}

/-- The system after the instruction. -/
def ran (s : System ι) (t : ι) (arrival : Arrival) (ok : Bool) (i : Instr) (rest : List Instr)
    (below : List Frame) : System ι :=
  (s.effect t i).put t (entered i ++ .code (s.next arrival ok rest i) :: below)

lemma ran_stack : (s.ran t arrival ok i rest below).stack =
    Function.update s.stack t (entered i ++ .code (s.next arrival ok rest i) :: below) := by
  rw [ran, put, effect_stack]

omit [DecidableEq ι] in
lemma countP_ran : (entered i ++ .code (s.next arrival ok rest i) :: below).countP Frame.due =
    below.countP Frame.due + if due (s.next arrival ok rest i) = true then 1 else 0 := by
  have hnone : (entered i).countP Frame.due = 0 := by cases i <;> rfl
  rw [List.countP_append, hnone, List.countP_cons, Nat.zero_add]
  rfl

lemma pending_ran_self : (s.ran t arrival ok i rest below).pending t =
    below.countP Frame.due + if due (s.next arrival ok rest i) = true then 1 else 0 := by
  rw [pending, ran_stack, Function.update_self, countP_ran]

lemma pending_ran_of_ne {u : ι} (hu : u ≠ t) :
    (s.ran t arrival ok i rest below).pending u = s.pending u := by
  rw [pending, ran_stack, Function.update_of_ne hu, pending]

variable (h : s.Once) (hstack : s.stack t = .code (i :: rest) :: below)

include hstack in
omit [DecidableEq ι] in
lemma pending_of_stack :
    s.pending t = below.countP Frame.due + if due (i :: rest) = true then 1 else 0 := by
  rw [pending, hstack, List.countP_cons]
  rfl

include h hstack

omit [DecidableEq ι] in
lemma Once.regular_ran : ∀ f ∈ entered i ++ .code (s.next arrival ok rest i) :: below,
    Lifecycle.regular f.rest = true := by
  have hold := h.regular t
  rw [hstack, List.forall_mem_cons] at hold
  intro f hf
  rcases List.mem_append.mp hf with hin | hin
  · cases i <;> simp only [entered, List.mem_singleton, List.not_mem_nil] at hin
    subst hin
    rfl
  · rcases List.mem_cons.mp hin with rfl | hin
    · exact (regular_next hold.1).1
    · exact hold.2 f hin

omit [DecidableEq ι] in
/-- The entries of the thread clear `is_open_` if they are due, provided the function that runs
does. -/
lemma Once.cleared_ran (hmono : s.isOpen = false → s'.isOpen = false)
    (hnext : due (s.next arrival ok rest i) = true →
      clears (s.next arrival ok rest i) = true ∨ s'.isOpen = false) :
    ∀ f ∈ entered i ++ .code (s.next arrival ok rest i) :: below, f.due = true →
      clears f.rest = true ∨ s'.isOpen = false := by
  have hold := h.cleared t
  rw [hstack, List.forall_mem_cons] at hold
  intro f hf hdue
  rcases List.mem_append.mp hf with hin | hin
  · cases i <;> simp only [entered, List.mem_singleton, List.not_mem_nil] at hin
    subst hin
    simp [Frame.due] at hdue
  · rcases List.mem_cons.mp hin with rfl | hin
    · exact hnext hdue
    · exact (hold.2 f hin hdue).imp id hmono

/-- **`on_close` is called**: no function is due any more. -/
lemma Once.invoke (hi : i = .invoke .onClose) : (s.ran t arrival ok i rest below).Once := by
  subst hi
  have hregular := h.regular_ran arrival ok hstack
  have hfirst : s.pending t = below.countP Frame.due + 1 := pending_of_stack hstack
  have hone := h.single t
  have hbelow : below.countP Frame.due = 0 := by omega
  have hthere : s.pending t ≠ 0 := by omega
  -- a function that is due to call has cleared `is_open_` by then
  have hclosed : s.isOpen = false := by
    have hcleared := h.cleared t (.code (.invoke .onClose :: rest))
      (by rw [hstack]; exact List.mem_cons_self) rfl
    exact hcleared.resolve_left (by simp [Frame.rest, clears])
  have hnext : due (s.next arrival ok rest (.invoke .onClose)) = false := by
    have hold := h.regular t
    rw [hstack, List.forall_mem_cons] at hold
    exact (regular_next hold.1).2 rfl
  -- behind the call no function is due
  have hnone : ∀ u, (s.ran t arrival ok (.invoke .onClose) rest below).pending u = 0 := by
    intro u
    rcases eq_or_ne u t with rfl | hu
    · rw [pending_ran_self, hnext, hbelow]
      rfl
    · rw [pending_ran_of_ne arrival ok hu]
      by_contra hne
      exact hu (h.alone u t hne hthere)
  -- there has been no call so far, since one is due
  have hcloses : s.closes = 0 := h.called.resolve_right fun hover => hthere (hover.2.2 t)
  refine ⟨forall_of_update (ran_stack arrival ok) hregular fun u _ => h.regular u, ?_, ?_,
    .inr ⟨?_, hclosed, hnone⟩, ?_, ?_⟩
  · intro u
    rw [hnone u]
    exact Nat.zero_le 1
  · intro u v hu
    exact absurd (hnone u) hu
  · show s.closes + 1 = 1
    rw [hcloses]
  · intro _
    left
    show s.closes + 1 = 1
    rw [hcloses]
  · intro u f _ _
    exact .inr hclosed

/-- **A function becomes due**: it is the only one. -/
lemma Once.commit (hbefore : due (i :: rest) = false)
    (hafter : due (s.next arrival ok rest i) = true) (hopen : s.isOpen = true)
    (hnone : ∀ u, s.pending u = 0) : (s.ran t arrival ok i rest below).Once := by
  have hbelow : below.countP Frame.due = 0 := by
    have := pending_of_stack hstack
    rw [hnone t] at this
    omega
  have hself : (s.ran t arrival ok i rest below).pending t = 1 := by
    rw [pending_ran_self, hafter, hbelow]
    rfl
  -- the function that is due now is the only one
  have honly : ∀ u, (s.ran t arrival ok i rest below).pending u ≠ 0 → u = t := by
    intro u hu
    by_contra hne
    rw [pending_ran_of_ne arrival ok hne, hnone u] at hu
    exact hu rfl
  have hi : i ≠ .invoke .onClose := by
    rintro rfl
    simp [due] at hbefore
  have hregular := h.regular t
  rw [hstack, List.forall_mem_cons] at hregular
  -- an open connection has not been told of its end
  have hcloses : s.closes = 0 := h.called.resolve_right fun hover => by
    rw [hover.2.1] at hopen
    simp at hopen
  refine ⟨forall_of_update (ran_stack arrival ok) (h.regular_ran arrival ok hstack)
    fun u _ => h.regular u, ?_, ?_, .inl ?_, fun _ => .inr ⟨t, by rw [hself]; simp⟩,
    forall_of_update (ran_stack arrival ok) (h.cleared_ran arrival ok hstack ?_ ?_) ?_⟩
  · intro u
    rcases eq_or_ne u t with rfl | hne
    · rw [hself]
    · rw [pending_ran_of_ne arrival ok hne, hnone u]
      exact Nat.zero_le 1
  · intro u v hu hv
    rw [honly u hu, honly v hv]
  · exact (effect_closes s t hi).trans hcloses
  · intro hfalse
    rw [hfalse] at hopen
    simp at hopen
  · exact fun _ => .inl (clears_of_commit hregular.1 hbefore hafter)
  · intro u _ f hf hdue
    have hzero := hnone u
    rw [pending, List.countP_eq_zero] at hzero
    exact absurd hdue (hzero f hf)

/-- **One instruction** of a settled step. -/
lemma Once.run (hsettled : s.Settled (.run t arrival ok)) :
    (s.ran t arrival ok i rest below).Once := by
  obtain ⟨hcommits, hstrays⟩ := hsettled
  by_cases hi : i = .invoke .onClose
  · exact h.invoke arrival ok hstack hi
  have hmono : s.isOpen = false → (s.ran t arrival ok i rest below).isOpen = false := by
    intro hfalse
    by_cases hclear : i = .clearOpen
    · subst hclear
      rfl
    · exact (effect_isOpen s t hclear).trans hfalse
  have hfirst := pending_of_stack hstack
  cases hbefore : due (i :: rest) with
  -- a function that is due stays so until the call
  | true =>
      have hafter : due (s.next arrival ok rest i) = true := due_next hi hbefore
      have hthere : s.pending t ≠ 0 := by
        rw [hfirst, hbefore]
        simp
      refine h.put (ran_stack arrival ok) (h.regular_ran arrival ok hstack) ?_
        (h.cleared_ran arrival ok hstack hmono fun _ => ?_) (effect_closes s t hi) ?_
      · rw [countP_ran, hafter, hfirst, hbefore]
      · by_cases hclear : i = .clearOpen
        · subst hclear
          exact .inr rfl
        · have hcleared := h.cleared t (.code (i :: rest))
            (by rw [hstack]; exact List.mem_cons_self) hbefore
          exact hcleared.imp (clears_next hclear hbefore) hmono
      · by_cases hclear : i = .clearOpen
        · subst hclear
          exact .inr ⟨rfl, .inr ⟨t, hthere⟩⟩
        · exact .inl (effect_isOpen s t hclear)
  | false =>
      cases hafter : due (s.next arrival ok rest i) with
      | true =>
          -- the instruction makes its function due, as the first
          obtain ⟨hopen, hnone⟩ := hcommits (by
            simp only [commits, hstack, hbefore, hafter]
            rfl)
          exact h.commit arrival ok hstack hbefore hafter hopen hnone
      | false =>
          refine h.put (ran_stack arrival ok) (h.regular_ran arrival ok hstack) ?_
            (h.cleared_ran arrival ok hstack hmono fun hdue => ?_) (effect_closes s t hi) ?_
          · rw [countP_ran, hafter, hfirst, hbefore]
          · rw [hafter] at hdue
            simp at hdue
          · by_cases hclear : i = .clearOpen
            · subst hclear
              -- `is_open_` is cleared by a function that is not due: some other one is
              refine .inr ⟨rfl, hstrays ?_⟩
              rw [strays, hstack]
              simpa [due] using hbefore
            · exact .inl (effect_isOpen s t hclear)

end Run

variable {opener reader : ι}

/-- **The shape of a step.** -/
lemma step_cases {a : Act ι} (h : s.step reader a = some s') :
    (∃ t program, Lifecycle.regular program = true ∧ due program = false ∧
        s' = s.put t (.code program :: s.stack t)) ∨
      (∃ t arrival ok i rest below, a = .run t arrival ok ∧
        s.stack t = .code (i :: rest) :: below ∧ s' = s.ran t arrival ok i rest below) ∨
      ∃ t f below, s.stack t = f :: below ∧ f.due = false ∧ s' = s.put t below := by
  cases a with
  | call t call =>
      left
      simp only [step] at h
      split at h
      · rename_i hstack
        split_ifs at h
        refine ⟨t, call.program, call.facts.1, call.facts.2, ?_⟩
        rw [hstack]
        exact (Option.some.inj h).symm
      · rename_i below hstack
        refine ⟨t, call.program, call.facts.1, call.facts.2, ?_⟩
        rw [hstack]
        exact (Option.some.inj h).symm
      · simp at h
  | turn =>
      left
      simp only [step] at h
      split at h
      · rename_i hstack
        split_ifs at h
        refine ⟨reader, turn, by decide, by decide, ?_⟩
        rw [hstack]
        exact (Option.some.inj h).symm
      · simp at h
  | run t arrival ok =>
      right
      left
      simp only [step] at h
      split at h
      · rename_i i rest below hstack
        split_ifs at h
        exact ⟨t, arrival, ok, i, rest, below, rfl, hstack, (Option.some.inj h).symm⟩
      · simp at h
  | ret t =>
      right
      right
      simp only [step] at h
      split at h
      · rename_i below hstack
        exact ⟨t, .code [], below, hstack, rfl, (Option.some.inj h).symm⟩
      · rename_i below hstack
        exact ⟨t, .handler, below, hstack, rfl, (Option.some.inj h).symm⟩
      · simp at h

/-- **One settled step.** -/
lemma Once.step {a : Act ι} (h : s.Once) (hsettled : s.Settled a)
    (hstep : s.step reader a = some s') : s'.Once := by
  rcases step_cases hstep with ⟨t, program, hregular, hdue, rfl⟩ |
    ⟨t, arrival, ok, i, rest, below, rfl, hstack, rfl⟩ | ⟨t, f, below, hstack, hdue, rfl⟩
  · refine h.put rfl ?_ ?_ ?_ rfl (.inl rfl)
    · exact List.forall_mem_cons.mpr ⟨hregular, h.regular t⟩
    · rw [List.countP_cons_of_neg (by simp [Frame.due, hdue])]
      rfl
    · refine List.forall_mem_cons.mpr ⟨fun hcontra => ?_, h.cleared t⟩
      simp [Frame.due, hdue] at hcontra
  · exact h.run arrival ok hstack hsettled
  · have hregular := h.regular t
    have hcleared := h.cleared t
    rw [hstack, List.forall_mem_cons] at hregular hcleared
    refine h.put rfl hregular.2 ?_ hcleared.2 rfl (.inl rfl)
    rw [pending, hstack, List.countP_cons_of_neg (by simp [hdue])]

lemma once_opened (opener : ι) : (opened opener).Once := by
  have hall : ∀ {P : Frame → Prop}, P (.code opening) →
      ∀ u, ∀ f ∈ (opened opener).stack u, P f := by
    intro P hP u f hf
    have hstack : (opened opener).stack = Function.update (fun _ => []) opener [.code opening] :=
      rfl
    rw [hstack] at hf
    rcases eq_or_ne u opener with rfl | hne
    · rw [Function.update_self, List.mem_singleton] at hf
      exact hf ▸ hP
    · rw [Function.update_of_ne hne] at hf
      simp at hf
  have hnone : ∀ u, (opened opener).pending u = 0 := fun u =>
    List.countP_eq_zero.mpr (hall (P := fun f => ¬f.due = true) (by decide) u)
  refine ⟨hall (by decide), fun u => ?_, fun u _ hu => absurd (hnone u) hu, .inl rfl, ?_,
    hall fun hdue => absurd hdue (by decide)⟩
  · rw [hnone u]
    exact Nat.zero_le 1
  · intro hclosed
    simp [opened] at hclosed

/-- What a run has come to, on two threads: the calls of `on_close`, `is_open_`, and what is under
way. -/
def summary (s : System Bool) : ℕ × Bool × List Frame × List Frame :=
  (s.closes, s.isOpen, s.stack false, s.stack true)

end System

/-- So many instructions of a thread, with writes succeeding. -/
def runs {ι : Type} (t : ι) (n : ℕ) (arrival : Arrival) : List (Act ι) :=
  List.replicate n (.run t arrival true)

/-- Thread `false` opens the connection; the reader, `true`, waits for a frame. -/
def openAndWait : List (Act Bool) :=
  [.run false .silent true, .ret false, .run false .silent true, .ret false, .turn] ++
    runs true 3 .silent

end Wscpp.Cpp.Lifecycle
