import Wscpp.Cpp.Lifecycle

/-!
# The two states of a client

`client::impl` keeps an `is_open_` and an `is_closing_` of its own beside those of its connection.
`connect` sets `is_open_` when `activate` has returned, which by then has called `on_open` and
started the reader; `close` does nothing unless the client's flags allow it; and when the peer ends
the session, or a read fails, the client is not told.  So `client::is_open()` and the connection's
can differ, and a `close` can be ignored while the connection is open.

There are two threads, the application's and the reader; a handler on either may call `close`.  The
functions are programs as in `Wscpp.Cpp.Lifecycle`, whose instructions and whose programs of the
connection are used here; the sends, which change none of the flags, are left out.  While no call
of the client is under way the flags agree, and a `close` that was made on an open connection has
sent its frame and closed it, in the runs in which

* `close` is called on an open connection only when `connect` has returned, and not when an earlier
  `close` has,
* `connect` opens the connection only while no `close` is under way and its socket is open, and it
  fails to connect the socket only while there is no session,
* a frame or a failed read that ends the session is met only when `close` has set the connection's
  `is_closing_`,
* `fail_with_close` shuts the socket only while no `close` is between its tests and its write, and
  the write of `close` does not fail

(`System.session_agrees`).  A stream that simply ends violates the third, and the client stays open
(`session_disagrees`).  A write on a socket that is shut gives nothing to the peer, which is why the
fourth is there: a violation that arrives while `close` waits for the mutex takes the socket away
from it.

The proof looks at the function that each entry of a stack is in through its `Phase`; what an
instruction does to phases and flags is said once, in `Shift`.
-/

namespace Wscpp.Cpp.Lifecycle.Client

open Moves

/-! ## Programs -/

/-- The atomic steps of the client's functions, with those of the connection's among them. -/
inductive Op
  | needOpen
  | needNotClosing
  | markClosing
  | markClosed
  /-- `socket().connect`, and TLS. -/
  | dial
  /-- `perform_handshake`. -/
  | upgrade
  /-- `is_open_ = true` of the connection, in `open_and_start_reader`. -/
  | activate
  | markOpen
  | conn (i : Instr)
  deriving DecidableEq, Repr

/-- The step is one of the connection's. -/
def Op.isConn : Op → Bool
  | conn _ => true
  | _ => false

/-- Instructions of the connection. -/
def inConn (program : List Instr) : List Op := program.map .conn

/-- `client::impl::close`, with `connection::impl::close` in it. -/
def close : List Op :=
  [.needOpen, .needNotClosing, .markClosing] ++ inConn Call.close.program ++ [.markClosed]

/-- `client::impl::connect`, with `open_and_start_reader` in it. -/
def connect : List Op :=
  [.dial, .upgrade, .activate] ++ inConn opening ++ [.markOpen]

/-- What is left after a step with `rest` behind it, when its test passes or what it tries succeeds,
and when not.  A function of the connection that returns leaves what the client does behind it. -/
def after (arrival : Arrival) (passed : Bool) (rest : List Op) : Op → List Op
  | .needOpen | .needNotClosing | .dial | .upgrade => if passed then rest else []
  | .conn (.require _ otherwise) =>
      if passed then rest else inConn otherwise.rest ++ rest.dropWhile Op.isConn
  | .conn .receive => inConn (if passed then arrival.handling else Arrival.lost.handling)
  | .conn .reply => if passed then rest else .conn (.invoke .onError) :: rest
  | _ => rest

/-! ## The system -/

/-- The application's thread, and the reader. -/
inductive Thread
  | main
  | reader
  deriving DecidableEq, Repr

/-- An entry of the stack of a thread: a function with what is left of it, or a handler of the
application. -/
inductive Frame
  | code (rest : List Op)
  | handler
  deriving DecidableEq, Repr

/-- The flags of the client and of its connection.  `asked` and `closeWritten` record, for the
session that was opened last, that `close` was called while the connection was open and that a CLOSE
frame was written. -/
structure Flags where
  clientOpen : Bool
  clientClosing : Bool
  isOpen : Bool
  isClosing : Bool
  socketOpen : Bool
  asked : Bool
  closeWritten : Bool
  deriving DecidableEq, Repr

/-- The flags, the other members that matter here, and the stack of each thread. -/
structure System extends Flags where
  reading : Bool
  readerRunning : Bool
  writeMutex : Option Thread
  stack : Thread → List Frame

/-- A step of the system: the application calls `connect`, or, also in a handler, `close`; the
reader begins a turn; a thread does its next instruction, in which a read gives what it gives and
what depends on the network may fail; a function or a handler returns. -/
inductive Act
  | connect
  | close (t : Thread)
  | turn
  | run (t : Thread) (arrival : Arrival) (ok : Bool)
  | ret (t : Thread)
  deriving DecidableEq, Repr

namespace System

/-- A client that has just been made. -/
def new : System where
  clientOpen := false
  clientClosing := false
  isOpen := false
  isClosing := false
  socketOpen := false
  reading := false
  readerRunning := false
  writeMutex := none
  asked := false
  closeWritten := false
  stack := fun _ => []

/-- The system with another stack for a thread. -/
def put (s : System) (t : Thread) (stack : List Frame) : System :=
  { s with stack := Function.update s.stack t stack }

/-- Whether a test passes, or what is tried succeeds. -/
def passes (s : System) (ok : Bool) : Op → Bool
  | .needOpen => s.clientOpen
  | .needNotClosing => !s.clientClosing
  | .dial => ok
  | .upgrade | .conn .write | .conn .reply => s.socketOpen && ok
  | .conn (.require .isOpen _) => s.isOpen
  | .conn (.require .notClosing _) => !s.isClosing
  | .conn .receive => s.socketOpen
  | _ => true

/-- What a step does to the members.  `start_reader_thread` starts no second thread, and
`join_reader_if_needed` does nothing on the reader itself. -/
def effect (s : System) (t : Thread) (passed : Bool) : Op → System
  | .markClosing => { s with clientClosing := true }
  | .markClosed => { s with clientOpen := false }
  | .markOpen => { s with clientOpen := true }
  | .dial => { s with socketOpen := passed }
  | .activate => { s with isOpen := true, asked := false, closeWritten := false }
  | .conn .setClosing => { s with isClosing := true }
  | .conn .lock => { s with writeMutex := some t }
  | .conn .unlock => { s with writeMutex := none }
  | .conn .write => { s with closeWritten := s.closeWritten || passed }
  | .conn .clearOpen => { s with isOpen := false }
  | .conn .closeSocket => { s with socketOpen := false }
  | .conn .startReader =>
      { s with
        reading := s.reading || (s.isOpen && !s.readerRunning)
        readerRunning := s.readerRunning || s.isOpen }
  | .conn .join => { s with readerRunning := s.readerRunning && decide (t = .reader) }
  | .conn .quit => { s with reading := false }
  | _ => s

/-- The step has to wait: for the mutex, or for the reader thread to end. -/
def blocked (s : System) (t : Thread) : Op → Bool
  | .conn .lock => s.writeMutex.isSome
  | .conn .join => decide (t = .main) && (s.reading || !(s.stack .reader).isEmpty)
  | _ => false

/-- What a step puts on the stack. -/
def entered : Op → List Frame
  | .conn (.invoke _) => [.handler]
  | _ => []

/-- The system after a step of a thread. -/
def ran (s : System) (t : Thread) (arrival : Arrival) (ok : Bool) (op : Op) (rest : List Op)
    (below : List Frame) : System :=
  (s.effect t (s.passes ok op) op).put t
    (entered op ++ .code (after arrival (s.passes ok op) rest op) :: below)

/-- `client::close` is called. -/
def called (s : System) (t : Thread) : System :=
  ({ s with asked := s.asked || s.isOpen }).put t (.code Client.close :: s.stack t)

/-- The steps of the system. -/
def step (s : System) : Act → Option System
  | .connect =>
      match s.stack .main with
      | [] => some (s.put .main [.code Client.connect])
      | _ => none
  | .close t =>
      match s.stack t with
      | [] => if t = .main then some (s.called t) else none
      | .handler :: _ => some (s.called t)
      | _ => none
  | .turn =>
      match s.stack .reader with
      | [] => if s.reading then some (s.put .reader [.code (inConn Lifecycle.turn)]) else none
      | _ => none
  | .run t arrival ok =>
      match s.stack t with
      | .code (op :: rest) :: below =>
          if s.blocked t op then none else some (s.ran t arrival ok op rest below)
      | _ => none
  | .ret t =>
      match s.stack t with
      | .code [] :: below => some (s.put t below)
      | .handler :: below => some (s.put t below)
      | _ => none

end System

/-! ## Phases -/

/-- Where a function is, as far as the flags are concerned. -/
inductive Phase
  /-- Nothing that matters is left. -/
  | idle
  /-- `client::close`, not behind its test of `is_closing_`. -/
  | entering
  /-- Behind both tests. -/
  | tested
  /-- `is_closing_` of the client is set, and the connection's `is_open_` not yet tested. -/
  | fresh
  /-- It is, and the connection's `is_closing_` not yet set. -/
  | checked
  /-- The CLOSE frame is to be written. -/
  | writing
  /-- It is, and `is_open_` of the connection is to be cleared. -/
  | written
  /-- It is cleared, and the reader is to be joined. -/
  | cleared
  /-- Only the client's `is_open_` is to be cleared. -/
  | leaving
  /-- `client::connect`, when the connection is open and the client not yet. -/
  | opening
  /-- A turn of `read_loop`, not behind its test of `is_closing_`. -/
  | turning
  /-- The reader is going to read. -/
  | poised
  /-- The reader is going to clear `is_open_` by itself. -/
  | ending
  /-- The same, in `fail_with_close`, which then shuts the socket. -/
  | failing
  /-- It shuts the socket next. -/
  | shutting
  deriving DecidableEq, Repr

/-- The phase, by what is left of a function. -/
def phase (rest : List Op) : Phase :=
  if .markClosed ∈ rest then
    if .needNotClosing ∈ rest then .entering
    else if .markClosing ∈ rest then .tested
    else if .conn .setClosing ∈ rest then
      if .conn (.require .isOpen .leave) ∈ rest then .fresh else .checked
    else if .conn .write ∈ rest then .writing
    else if .conn .clearOpen ∈ rest then .written
    else if .conn .join ∈ rest then .cleared
    else .leaving
  else if .markOpen ∈ rest then if .activate ∈ rest then .idle else .opening
  else if .conn .receive ∈ rest then
    if .conn (.require .notClosing .quit) ∈ rest then .turning else .poised
  else if .conn .clearOpen ∈ rest then if .conn .closeSocket ∈ rest then .failing else .ending
  else if .conn .closeSocket ∈ rest then .shutting
  else .idle

/-- The programs, and what tests that fail lead to. -/
def programs : List (List Op) :=
  [close, connect, inConn Lifecycle.turn,
    .conn (.invoke .onError) :: inConn Exit.releaseBack.rest] ++
  [Arrival.message, .silent, .ping, .close, .violation, .lost].map (inConn ·.handling) ++
  [Exit.leave, .release, .back, .releaseBack, .quit, .shutdown].map (inConn ·.rest)

/-- What can be left of a function. -/
def places : List (List Op) := (programs.flatMap List.tails).dedup

/-- The phase after a step, from the one before. -/
def Phase.next (arrival : Arrival) (passed : Bool) (φ : Phase) : Op → Phase
  | .needOpen => if passed then φ else .idle
  | .needNotClosing => if passed then .tested else .idle
  | .markClosing => .fresh
  | .markClosed => .idle
  | .activate => .opening
  | .markOpen => .idle
  | .conn (.require flag _) =>
      if passed then
        if φ = .turning ∧ flag = .notClosing then .poised else if φ = .fresh then .checked else φ
      else if φ = .fresh ∨ φ = .checked then .leaving
      else if φ = .failing then .failing
      else .idle
  | .conn .receive => phase (inConn (if passed then arrival.handling else Arrival.lost.handling))
  | .conn .setClosing => if φ = .checked then .writing else φ
  | .conn .write => if φ = .writing then .written else φ
  | .conn .clearOpen =>
      if φ = .written then .cleared else if φ = .failing then .shutting else .idle
  | .conn .closeSocket => if φ = .cleared then .cleared else .idle
  | .conn .join => .leaving
  | _ => φ

/-- The phases in which a step can be. -/
def Phase.fits (φ : Phase) : Op → Bool
  | .needOpen | .needNotClosing => φ == .entering
  | .markClosing => φ == .tested
  | .markClosed => φ == .leaving
  | .dial | .upgrade | .activate => φ == .idle
  | .markOpen => φ == .opening
  | .conn (.require .isOpen .leave) => φ == .fresh
  | .conn (.require .notClosing .leave) => φ == .checked
  | .conn (.require .isOpen .quit) => φ == .turning || φ == .poised || φ == .idle
  | .conn (.require .notClosing .quit) => φ == .turning
  | .conn (.require _ _) => φ == .idle || φ == .failing
  | .conn .receive => φ == .poised
  | .conn .setClosing => φ == .checked || φ == .failing
  | .conn .write => φ == .writing || φ == .ending || φ == .failing
  | .conn .clearOpen => φ == .written || φ == .ending || φ == .failing
  | .conn .closeSocket => φ == .cleared || φ == .shutting
  | .conn .join => φ == .cleared
  | .conn (.invoke _) => φ != .poised
  | _ => true

/-- The arrivals that matter for a step: those of a read. -/
def arrivalsOf (op : Op) : List Arrival :=
  if op = .conn .receive then [.message, .silent, .ping, .close, .violation, .lost] else [.silent]

/-- A place is in a phase that fits its step, and the step leads to a place in the phase that
`Phase.next` gives. -/
def sound : List Op → Bool
  | [] => true
  | op :: rest =>
      (phase (op :: rest)).fits op && [true, false].all fun passed =>
        (arrivalsOf op).all fun arrival =>
          places.contains (after arrival passed rest op) &&
            decide (phase (after arrival passed rest op) =
              (phase (op :: rest)).next arrival passed op)

lemma places_sound : places.all sound = true := by decide +kernel

/-- What arrives matters for a read only. -/
lemma after_eq {op : Op} (h : op ≠ .conn .receive) (arrival : Arrival) (passed : Bool)
    (rest : List Op) (φ : Phase) :
    after arrival passed rest op = after .silent passed rest op ∧
      φ.next arrival passed op = φ.next .silent passed op := by
  cases op with
  | conn i =>
      cases i with
      | receive => exact absurd rfl h
      | _ => exact ⟨rfl, rfl⟩
  | _ => exact ⟨rfl, rfl⟩

lemma mem_arrivalsOf_receive (arrival : Arrival) : arrival ∈ arrivalsOf (.conn .receive) := by
  cases arrival <;> decide

section Places

variable {op : Op} {rest : List Op} (h : op :: rest ∈ places)

include h

lemma fits_of_place : (phase (op :: rest)).fits op = true := by
  have hsound := List.all_eq_true.mp places_sound _ h
  rw [sound, Bool.and_eq_true] at hsound
  exact hsound.1

lemma after_of_place (arrival : Arrival) (passed : Bool) :
    after arrival passed rest op ∈ places ∧
      phase (after arrival passed rest op) = (phase (op :: rest)).next arrival passed op := by
  have hsound := List.all_eq_true.mp places_sound _ h
  rw [sound, Bool.and_eq_true, List.all_eq_true] at hsound
  have hpassed := hsound.2 passed (by cases passed <;> decide)
  rw [List.all_eq_true] at hpassed
  by_cases hop : op = .conn .receive
  · subst hop
    simpa using hpassed arrival (mem_arrivalsOf_receive arrival)
  · have hsilent := hpassed .silent (by simp [arrivalsOf, hop])
    rw [(after_eq hop arrival passed rest (phase (op :: rest))).1,
      (after_eq hop arrival passed rest (phase (op :: rest))).2]
    simpa using hsilent

end Places

/-! ## The condition -/

namespace Phase

/-- One phase. -/
def is (ψ φ : Phase) : Bool := φ == ψ

/-- Inside `client::close`, behind its tests. -/
def body : Phase → Bool
  | fresh | checked | writing | written | cleared | leaving => true
  | _ => false

/-- Inside `client::close`. -/
def closing : Phase → Bool
  | entering | tested => true
  | φ => φ.body

/-- Inside `connection::close`, before it sets `is_closing_`. -/
def unmarked : Phase → Bool
  | fresh | checked => true
  | _ => false

/-- The connection was open at the first test of `connection::close`, and the CLOSE frame is to be
written. -/
def armed : Phase → Bool
  | checked | writing => true
  | _ => false

/-- The connection's `is_closing_` was set here, and its `is_open_` will be cleared. -/
def committed : Phase → Bool
  | writing | written => true
  | _ => false

/-- The connection's `is_closing_` was set here, and the reader will be joined. -/
def joining : Phase → Bool
  | writing | written | cleared => true
  | _ => false

/-- The CLOSE frame was written here, and the function has not returned. -/
def sent : Phase → Bool
  | written | cleared => true
  | _ => false

/-- The reader ends the session by itself. -/
def fatal : Phase → Bool
  | ending | failing | shutting => true
  | _ => false

/-- The phases of the reader's own functions. -/
def ofReader : Phase → Bool
  | turning | poised | ending | failing | shutting => true
  | _ => false

lemma ofReader_of_fatal {φ : Phase} (h : φ.fatal = true) : φ.ofReader = true := by
  cases φ <;> first | rfl | cases h

end Phase

/-- The phase of an entry. -/
def Frame.phase : Frame → Phase
  | code rest => Client.phase rest
  | handler => .idle

/-- The entry is a call of the client that has something left to do. -/
def Frame.inCall : Frame → Bool
  | code rest => rest.any (!·.isConn)
  | handler => false

namespace System

/-- Some entry is in such a phase. -/
def has (s : System) (P : Phase → Bool) : Prop := ∃ t, ∃ f ∈ s.stack t, P f.phase = true

/-- No call of the client has anything left to do. -/
def Idle (s : System) : Prop := ∀ t, ∀ f ∈ s.stack t, f.inCall = false

/-- The next step of a thread is this one. -/
def about (s : System) (t : Thread) (op : Op) : Prop :=
  ∃ rest below, s.stack t = .code (op :: rest) :: below

/-- A thread is in a function in this phase. -/
def within (s : System) (t : Thread) (φ : Phase) : Prop :=
  ∃ rest below, s.stack t = .code rest :: below ∧ phase rest = φ

/-- A read will end the session. -/
def ends (s : System) (arrival : Arrival) : Bool :=
  (phase (inConn (if s.socketOpen then arrival.handling else Arrival.lost.handling))).fatal

/-- `close` is called on an open connection only when `connect` is not about to return and no
`close` has returned. -/
def ClosesApart (s : System) : Prop :=
  s.isOpen = true → ¬s.has (Phase.is .opening) ∧ (s.clientClosing = true → s.has Phase.body)

/-- `connect` opens the connection only while no `close` is under way and its socket is open. -/
def OpensApart (s : System) (t : Thread) : Prop :=
  s.about t .activate → ¬s.has Phase.closing ∧ s.socketOpen = true

/-- `connect` fails to connect the socket only while there is no session that it would end. -/
def MissesApart (s : System) (t : Thread) (ok : Bool) : Prop :=
  s.about t .dial → ok = false → s.isOpen = false ∧ ¬s.has Phase.closing

/-- What ends a session is read only when the connection is closing. -/
def EndsWhenClosing (s : System) (t : Thread) (arrival : Arrival) : Prop :=
  s.about t (.conn .receive) → s.ends arrival = true → s.isClosing = true

/-- `fail_with_close` shuts the socket only while no `close` has its frame still to write. -/
def FailsApart (s : System) (t : Thread) : Prop :=
  s.within t .shutting → ¬s.has Phase.armed

/-- The write of `close` does not fail. -/
def Writes (s : System) (t : Thread) (ok : Bool) : Prop :=
  s.about t (.conn .write) → s.within t .writing → ok = true

/-- The functions of the client and of the reader keep out of each other's way. -/
def Orderly (s : System) : Act → Prop
  | .close _ => s.ClosesApart
  | .run t arrival ok =>
      s.OpensApart t ∧ s.MissesApart t ok ∧ s.EndsWhenClosing t arrival ∧ s.FailsApart t ∧
        s.Writes t ok
  | _ => True

end System

/-! ## What a step does -/

/-- What a step of thread `t` does to the phase it is in and to the flags. -/
inductive Shift (s : System) (t : Thread) : Phase → Flags → Phase → Prop
  | stay (φ : Phase) : Shift s t φ s.toFlags φ
  | dialled : Shift s t .idle { s.toFlags with socketOpen := true } .idle
  | missed (h : s.isOpen = false ∧ ¬s.has Phase.closing) :
      Shift s t .idle { s.toFlags with socketOpen := false } .idle
  | refuse (h : s.clientOpen = false ∨ s.clientClosing = true) :
      Shift s t .entering s.toFlags .idle
  | test (h : s.clientClosing = false) : Shift s t .entering s.toFlags .tested
  | enter : Shift s t .tested { s.toFlags with clientClosing := true } .fresh
  | check (h : s.isOpen = true) : Shift s t .fresh s.toFlags .checked
  | leave {φ : Phase} (hφ : φ = .fresh ∨ φ = .checked)
      (h : s.isOpen = false ∨ s.isClosing = true) : Shift s t φ s.toFlags .leaving
  | commit : Shift s t .checked { s.toFlags with isClosing := true } .writing
  | write : Shift s t .writing
      { s.toFlags with closeWritten := s.closeWritten || s.socketOpen } .written
  | clear : Shift s t .written { s.toFlags with isOpen := false } .cleared
  | shut : Shift s t .cleared { s.toFlags with socketOpen := false } .cleared
  | join (h : t = .main → s.stack .reader = []) : Shift s t .cleared s.toFlags .leaving
  | finish : Shift s t .leaving { s.toFlags with clientOpen := false } .idle
  | activate (h : ¬s.has Phase.closing ∧ s.socketOpen = true) :
      Shift s t .idle { s.toFlags with isOpen := true, asked := false, closeWritten := false }
        .opening
  | opened : Shift s t .opening { s.toFlags with clientOpen := true } .idle
  | poise (h : s.isClosing = false) : Shift s t .turning s.toFlags .poised
  | drop {φ : Phase} (h : φ = .turning ∨ φ = .poised) : Shift s t φ s.toFlags .idle
  | meet {φ : Phase} (hφ : φ = .ending ∨ φ = .failing) (h : s.isClosing = true) :
      Shift s t .poised s.toFlags φ
  | mark : Shift s t .failing { s.toFlags with isClosing := true } .failing
  | answer {φ : Phase} (hφ : φ = .ending ∨ φ = .failing) (passed : Bool) :
      Shift s t φ { s.toFlags with closeWritten := s.closeWritten || passed } φ
  | ended : Shift s t .ending { s.toFlags with isOpen := false } .idle
  | failed : Shift s t .failing { s.toFlags with isOpen := false } .shutting
  | down (h : ¬s.has Phase.armed) :
      Shift s t .shutting { s.toFlags with socketOpen := false } .idle

lemma phase_handling (arrival : Arrival) :
    phase (inConn arrival.handling) = .idle ∨ phase (inConn arrival.handling) = .ending ∨
      phase (inConn arrival.handling) = .failing := by
  cases arrival <;> decide

lemma phase_read (s : System) (arrival : Arrival) {φ : Phase}
    (hφ : phase (inConn (if s.socketOpen then arrival.handling else Arrival.lost.handling)) = φ) :
    φ = .idle ∨ φ = .ending ∨ φ = .failing := by
  subst hφ
  split
  · exact phase_handling arrival
  · exact phase_handling .lost

/-- A test of one of the connection's flags that passes. -/
lemma shift_of_passed {s : System} {t : Thread} (arrival : Arrival) {flag : Flag}
    {otherwise : Exit} {φ : Phase} (hfits : φ.fits (.conn (.require flag otherwise)) = true)
    (hpassed : s.passes true (.conn (.require flag otherwise)) = true) :
    Shift s t φ s.toFlags (φ.next arrival true (.conn (.require flag otherwise))) := by
  by_cases hturn : φ = .turning ∧ flag = .notClosing
  · obtain ⟨rfl, rfl⟩ := hturn
    simpa [Phase.next] using Shift.poise (by simpa [System.passes] using hpassed)
  by_cases hfresh : φ = .fresh
  · subst hfresh
    obtain rfl : flag = .isOpen := by
      cases flag with
      | isOpen => rfl
      | notClosing => cases otherwise <;> cases hfits
    simpa [Phase.next] using Shift.check (by simpa [System.passes] using hpassed)
  · simpa [Phase.next, hturn, hfresh] using Shift.stay φ

/-- One that fails. -/
lemma shift_of_refused {s : System} {t : Thread} (arrival : Arrival) {flag : Flag}
    {otherwise : Exit} {φ : Phase} (hfits : φ.fits (.conn (.require flag otherwise)) = true)
    (hpassed : s.passes true (.conn (.require flag otherwise)) = false) :
    Shift s t φ s.toFlags (φ.next arrival false (.conn (.require flag otherwise))) := by
  by_cases hclose : φ = .fresh ∨ φ = .checked
  · have hflag : s.isOpen = false ∨ s.isClosing = true := by
      cases flag with
      | isOpen => exact .inl (by simpa [System.passes] using hpassed)
      | notClosing => exact .inr (by simpa [System.passes] using hpassed)
    simpa [Phase.next, hclose] using Shift.leave hclose hflag
  by_cases hfailing : φ = .failing
  · subst hfailing
    simpa [Phase.next] using Shift.stay .failing
  · have hcases : φ = .idle ∨ φ = .turning ∨ φ = .poised := by
      cases otherwise <;> cases flag <;> cases φ <;> simp_all [Phase.fits]
    simp only [Phase.next, hclose, hfailing, if_false, Bool.false_eq_true]
    rcases hcases with rfl | hreader
    · exact .stay .idle
    · exact .drop hreader

section Run

variable {s : System} {t : Thread} {arrival : Arrival} {ok : Bool} {rest : List Op}
  {below : List Frame} {φ : Phase}

/-- An instruction of the connection that writes, or that changes one of its flags. -/
lemma shift_of_conn {i : Instr} (hfits : φ.fits (.conn i) = true)
    (hstack : s.stack t = .code (.conn i :: rest) :: below) (hphase : phase (.conn i :: rest) = φ)
    (horderly : s.Orderly (.run t arrival ok)) (hfree : s.blocked t (.conn i) = false) :
    Shift s t φ (s.effect t (s.passes ok (.conn i)) (.conn i)).toFlags
      (φ.next arrival (s.passes ok (.conn i)) (.conn i)) := by
  obtain ⟨-, -, hends, hfails, hwrites⟩ := horderly
  have hwithin : s.within t φ := ⟨_, _, hstack, hphase⟩
  cases i with
  | require flag otherwise =>
      have hsame : s.passes ok (.conn (.require flag otherwise)) =
          s.passes true (.conn (.require flag otherwise)) := by
        cases flag <;> rfl
      rw [hsame]
      cases hpassed : s.passes true (.conn (.require flag otherwise)) with
      | true => exact shift_of_passed arrival hfits hpassed
      | false => exact shift_of_refused arrival hfits hpassed
  | receive =>
      obtain rfl : φ = .poised := by simpa [Phase.fits] using hfits
      have hends' : (phase (inConn (if s.socketOpen then arrival.handling else
          Arrival.lost.handling))).fatal = true → s.isClosing = true :=
        hends ⟨rest, below, hstack⟩
      show Shift s t .poised s.toFlags (phase (inConn (if s.socketOpen then arrival.handling else
        Arrival.lost.handling)))
      generalize hread : phase (inConn (if s.socketOpen then arrival.handling else
        Arrival.lost.handling)) = φ' at hends'
      rcases phase_read s arrival hread with rfl | rfl | rfl
      · exact .drop (.inr rfl)
      · exact .meet (.inl rfl) (hends' rfl)
      · exact .meet (.inr rfl) (hends' rfl)
  | setClosing =>
      have hcases : φ = .checked ∨ φ = .failing := by simpa [Phase.fits] using hfits
      rcases hcases with rfl | rfl
      · exact .commit
      · exact .mark
  | write =>
      have hcases : φ = .writing ∨ φ = .ending ∨ φ = .failing := by
        simpa [Phase.fits, or_assoc] using hfits
      rcases hcases with rfl | rfl | rfl
      · -- the write does not fail, so it goes out if the socket is open
        obtain rfl : ok = true := hwrites ⟨rest, below, hstack⟩ hwithin
        simpa [System.effect, System.passes, Phase.next] using Shift.write (s := s) (t := t)
      · exact .answer (.inl rfl) _
      · exact .answer (.inr rfl) _
  | clearOpen =>
      have hcases : φ = .written ∨ φ = .ending ∨ φ = .failing := by
        simpa [Phase.fits, or_assoc] using hfits
      rcases hcases with rfl | rfl | rfl
      · exact .clear
      · exact .ended
      · exact .failed
  | closeSocket =>
      have hcases : φ = .cleared ∨ φ = .shutting := by simpa [Phase.fits] using hfits
      rcases hcases with rfl | rfl
      · exact .shut
      · exact .down (hfails hwithin)
  | join =>
      obtain rfl : φ = .cleared := by simpa [Phase.fits] using hfits
      refine .join fun hmain => ?_
      subst hmain
      have hover : s.reading = false ∧ s.stack .reader = [] := by
        simpa [System.blocked] using hfree
      exact hover.2
  | _ => exact .stay φ

/-- **The shape of a step.**  In an orderly run it is one of the shifts. -/
lemma shift_of_run {op : Op} (hplace : op :: rest ∈ places)
    (hstack : s.stack t = .code (op :: rest) :: below)
    (horderly : s.Orderly (.run t arrival ok)) (hfree : s.blocked t op = false) :
    Shift s t (phase (op :: rest)) (s.effect t (s.passes ok op) op).toFlags
      (phase (after arrival (s.passes ok op) rest op)) := by
  -- the phase is that of the place, and each instruction fits a few phases only
  have hfits := fits_of_place hplace
  rw [(after_of_place hplace arrival (s.passes ok op)).2]
  generalize hphase : phase (op :: rest) = φ at hfits
  cases op with
  | needOpen =>
      obtain rfl : φ = .entering := by simpa [Phase.fits] using hfits
      cases hopen : s.clientOpen with
      | true => simpa [System.effect, System.passes, Phase.next, hopen] using Shift.stay .entering
      | false =>
          simpa [System.effect, System.passes, Phase.next, hopen] using Shift.refuse (.inl hopen)
  | needNotClosing =>
      obtain rfl : φ = .entering := by simpa [Phase.fits] using hfits
      cases hclosing : s.clientClosing with
      | true =>
          simpa [System.effect, System.passes, Phase.next, hclosing] using
            Shift.refuse (.inr hclosing)
      | false =>
          simpa [System.effect, System.passes, Phase.next, hclosing] using Shift.test hclosing
  | markClosing =>
      obtain rfl : φ = .tested := by simpa [Phase.fits] using hfits
      exact .enter
  | markClosed =>
      obtain rfl : φ = .leaving := by simpa [Phase.fits] using hfits
      exact .finish
  | dial =>
      obtain rfl : φ = .idle := by simpa [Phase.fits] using hfits
      cases ok with
      | true => exact .dialled
      -- a `connect` that fails resets the flags, so nobody may be closing
      | false => exact .missed (horderly.2.1 ⟨rest, below, hstack⟩ rfl)
  | upgrade => exact .stay φ
  | activate =>
      obtain rfl : φ = .idle := by simpa [Phase.fits] using hfits
      exact .activate (horderly.1 ⟨rest, below, hstack⟩)
  | markOpen =>
      obtain rfl : φ = .opening := by simpa [Phase.fits] using hfits
      exact .opened
  | conn i => exact shift_of_conn hfits hstack hphase horderly hfree

end Run

section Shift

variable {s : System} {t : Thread} {φ φ' : Phase} {f' : Flags}

lemma Shift.isClosing (hshift : Shift s t φ f' φ') (h : s.isClosing = true) :
    f'.isClosing = true := by
  cases hshift <;> first | exact h | rfl

/-- The connection's `is_closing_` is set in two places. -/
lemma Shift.eq_of_isClosing (hshift : Shift s t φ f' φ') (h : s.isClosing = false)
    (h' : f'.isClosing = true) : (φ = .checked ∧ φ' = .writing) ∨ φ.fatal = true := by
  cases hshift with
  | commit => exact .inl ⟨rfl, rfl⟩
  | mark => exact .inr rfl
  | _ => simp [h] at h'

lemma Shift.ofReader (hshift : Shift s t φ f' φ') (h : φ.ofReader = false) :
    φ'.ofReader = false := by
  cases hshift with
  | stay => exact h
  | poise => cases h
  | meet => cases h
  | mark => cases h
  | answer => exact h
  | ended => cases h
  | failed => cases h
  | _ => rfl

/-- How a function comes to be one that ends the session. -/
lemma Shift.eq_of_fatal (hshift : Shift s t φ f' φ') (h : φ'.fatal = true) :
    φ.fatal = true ∨ (φ = .poised ∧ s.isClosing = true) := by
  cases hshift with
  | stay => exact .inl h
  | meet hφ hclosing => exact .inr ⟨rfl, hclosing⟩
  | mark => exact .inl rfl
  | answer hφ => exact .inl h
  | failed => exact .inl rfl
  | _ => cases h

lemma Shift.eq_of_poised (hshift : Shift s t φ f' φ') (h : φ' = .poised) :
    φ = .poised ∨ f'.isClosing = false := by
  subst h
  cases hshift with
  | stay => exact .inl rfl
  | poise hnot => exact .inr hnot
  | meet hφ => simp at hφ
  | answer hφ => simp at hφ

/-- A function that will join the reader still will, unless it does so now. -/
lemma Shift.joining (hshift : Shift s t φ f' φ') (h : φ.joining = true) :
    φ'.joining = true ∨ (t = .main → s.stack .reader = []) := by
  cases hshift with
  | stay => exact .inl h
  | write => exact .inl rfl
  | clear => exact .inl rfl
  | shut => exact .inl rfl
  | join hover => exact .inr hover
  | leave hφ => rcases hφ with rfl | rfl <;> cases h
  | drop hφ => rcases hφ with rfl | rfl <;> cases h
  | answer hφ => exact .inl h
  | _ => cases h

end Shift

/-! ## The invariant -/

namespace System

/-- The application's thread is going to join the reader, having set the connection's
`is_closing_`. -/
def joins (s : System) : Prop := ∃ f ∈ s.stack .main, f.phase.joining = true

/-- The phases that entries are in. -/
structure Present where
  closing : Prop
  body : Prop
  unmarked : Prop
  armed : Prop
  committed : Prop
  tested : Prop
  writing : Prop
  sent : Prop
  opening : Prop
  shutting : Prop

/-- The phases of a system, or of a part of it. -/
def Present.of (has : (Phase → Bool) → Prop) : Present where
  closing := has Phase.closing
  body := has Phase.body
  unmarked := has Phase.unmarked
  armed := has Phase.armed
  committed := has Phase.committed
  tested := has (Phase.is .tested)
  writing := has (Phase.is .writing)
  sent := has Phase.sent
  opening := has (Phase.is .opening)
  shutting := has (Phase.is .shutting)

/-- One more entry. -/
def Present.add (o : Present) (φ : Phase) : Present where
  closing := φ.closing = true ∨ o.closing
  body := φ.body = true ∨ o.body
  unmarked := φ.unmarked = true ∨ o.unmarked
  armed := φ.armed = true ∨ o.armed
  committed := φ.committed = true ∨ o.committed
  tested := Phase.is .tested φ = true ∨ o.tested
  writing := Phase.is .writing φ = true ∨ o.writing
  sent := φ.sent = true ∨ o.sent
  opening := Phase.is .opening φ = true ∨ o.opening
  shutting := Phase.is .shutting φ = true ∨ o.shutting

/-- Which phases are among which. -/
structure Present.Coherent (o : Present) : Prop where
  body : o.body → o.closing
  unmarked : o.unmarked → o.body
  armed : o.armed → o.body
  committed : o.committed → o.body
  tested : o.tested → o.closing
  writing : o.writing → o.committed
  sent : o.sent → o.body

/-- What holds of the flags and of the phases that the entries are in. -/
structure Settled (f : Flags) (p : Present) : Prop where
  body : p.body → f.clientClosing = true
  closing : f.isClosing = true → f.clientClosing = true
  opening : p.opening → f.isOpen = true ∧ ¬p.closing
  agree : ¬p.opening → ¬p.body → f.clientOpen = f.isOpen
  /-- Of those who are closing an open connection one will get there. -/
  pursued : p.body → f.isOpen = true → p.committed ∨ (p.unmarked ∧ f.isClosing = false)
  tested : p.tested → f.clientClosing = false ∨ p.body ∨ f.isOpen = false
  asked : f.asked = true → f.isOpen = true →
    p.body ∨ (p.closing ∧ f.clientOpen = true ∧ f.clientClosing = false)
  owed : f.asked = true → f.isOpen = false → f.closeWritten = true ∨ p.writing
  sent : p.sent → f.closeWritten = true
  /-- The socket is not shut before the CLOSE frame is written. -/
  usable : f.isOpen = true → f.socketOpen = true ∨ f.closeWritten = true
  armed : p.armed → f.socketOpen = true ∨ f.closeWritten = true
  shutting : p.shutting → f.isOpen = false

/-- What holds along an orderly run. -/
structure Inv (s : System) : Prop where
  places : ∀ t, ∀ f ∈ s.stack t, ∀ rest, f = .code rest → rest ∈ Client.places
  settled : Settled s.toFlags (.of s.has)
  /-- The reader ends a session, or is about to see that it is over, only while it is waited for. -/
  fatal : s.has Phase.fatal → s.isClosing = true ∧ s.joins
  poised : s.has (Phase.is .poised) → s.isClosing = true → s.joins
  main : ∀ f ∈ s.stack .main, f.phase.ofReader = false
  top : ∀ f ∈ (s.stack .reader).tail, f.phase ≠ .poised

/-- Some entry is in such a phase, other than the one of thread `t` above `below`. -/
def others (s : System) (t : Thread) (below : List Frame) (P : Phase → Bool) : Prop :=
  (∃ f ∈ below, P f.phase = true) ∨ ∃ u, u ≠ t ∧ ∃ f ∈ s.stack u, P f.phase = true

lemma has_of_update {s s' : System} {t : Thread} {new below : List Frame} {φ : Phase}
    (hstack : s'.stack = Function.update s.stack t (new ++ below)) {P : Phase → Bool}
    (hnew : (∃ f ∈ new, P f.phase = true) ↔ P φ = true) :
    s'.has P ↔ P φ = true ∨ s.others t below P := by
  rw [← hnew, has, others]
  constructor
  · rintro ⟨u, f, hf, hP⟩
    rw [hstack] at hf
    rcases eq_or_ne u t with rfl | hne
    · rw [Function.update_self, List.mem_append] at hf
      rcases hf with hf | hf
      · exact .inl ⟨f, hf, hP⟩
      · exact .inr (.inl ⟨f, hf, hP⟩)
    · rw [Function.update_of_ne hne] at hf
      exact .inr (.inr ⟨u, hne, f, hf, hP⟩)
  · rintro (⟨f, hf, hP⟩ | ⟨f, hf, hP⟩ | ⟨u, hne, f, hf, hP⟩)
    · exact ⟨t, f, by rw [hstack, Function.update_self]; exact List.mem_append_left _ hf, hP⟩
    · exact ⟨t, f, by rw [hstack, Function.update_self]; exact List.mem_append_right _ hf, hP⟩
    · exact ⟨u, f, by rw [hstack, Function.update_of_ne hne]; exact hf, hP⟩

lemma others_mono {s : System} {t : Thread} {below : List Frame} (P Q : Phase → Bool)
    (hPQ : ∀ φ, P φ = true → Q φ = true) (h : s.others t below P) : s.others t below Q := by
  rcases h with ⟨f, hf, hP⟩ | ⟨u, hne, f, hf, hP⟩
  · exact .inl ⟨f, hf, hPQ _ hP⟩
  · exact .inr ⟨u, hne, f, hf, hPQ _ hP⟩

section Add

variable (o : Present)

attribute [local simp] Present.add Phase.closing Phase.body Phase.unmarked Phase.armed
  Phase.committed Phase.sent Phase.is

lemma add_idle : o.add .idle = o := by simp

lemma add_turning : o.add .turning = o := add_idle o

lemma add_ending : o.add .ending = o := add_idle o

lemma add_failing : o.add .failing = o := add_idle o

lemma add_entering : o.add .entering = { o with closing := True } := by simp

lemma add_tested : o.add .tested = { o with closing := True, tested := True } := by simp

lemma add_fresh : o.add .fresh = { o with closing := True, body := True, unmarked := True } := by
  simp

lemma add_checked : o.add .checked =
    { o with closing := True, body := True, unmarked := True, armed := True } := by
  simp

lemma add_writing : o.add .writing =
    { o with closing := True, body := True, armed := True, committed := True,
             writing := True } := by
  simp

lemma add_written : o.add .written =
    { o with closing := True, body := True, committed := True, sent := True } := by
  simp

lemma add_cleared : o.add .cleared = { o with closing := True, body := True, sent := True } := by
  simp

lemma add_leaving : o.add .leaving = { o with closing := True, body := True } := by simp

lemma add_opening : o.add .opening = { o with opening := True } := by simp

lemma add_shutting : o.add .shutting = { o with shutting := True } := by simp

end Add

section Shifts

variable {f : Flags} {o : Present}

/-- `client::close` is called. -/
lemma Settled.called (h : Settled f o)
    (horderly : f.isOpen = true → ¬o.opening ∧ (f.clientClosing = true → o.body)) :
    Settled { f with asked := f.asked || f.isOpen } (o.add .entering) := by
  rw [add_entering]
  refine { h with opening := ?_, asked := ?_, owed := ?_ }
  · intro hopening
    exact absurd hopening (horderly (h.opening hopening).1).1
  · intro _ hopen
    obtain ⟨hnone, hclosing⟩ := horderly hopen
    by_cases hbody : o.body
    · exact .inl hbody
    · refine .inr ⟨trivial, (h.agree hnone hbody).trans hopen, ?_⟩
      exact Bool.eq_false_iff.mpr fun htrue => hbody (hclosing htrue)
  · intro hasked hclosed
    have hclosed' : f.isOpen = false := hclosed
    rw [hclosed', Bool.or_false] at hasked
    exact h.owed hasked hclosed'

lemma Settled.refuse (h : Settled f (o.add .entering))
    (hrefused : f.clientOpen = false ∨ f.clientClosing = true) : Settled f (o.add .idle) := by
  rw [add_entering] at h
  rw [add_idle]
  refine { h with opening := ?_, asked := ?_ }
  · intro hopening
    exact absurd trivial (h.opening hopening).2
  · intro hasked hopen
    rcases h.asked hasked hopen with hbody | ⟨-, hclient, hnot⟩
    · exact .inl hbody
    · simp [hclient, hnot] at hrefused

lemma Settled.test (h : Settled f (o.add .entering)) (hnot : f.clientClosing = false) :
    Settled f (o.add .tested) := by
  rw [add_entering] at h
  rw [add_tested]
  exact { h with tested := fun _ => .inl hnot }

/-- `client::close` sets `is_closing_`: the connection is not closing yet, or another is closing
it. -/
lemma Settled.enter (h : Settled f (o.add .tested)) :
    Settled { f with clientClosing := true } (o.add .fresh) := by
  rw [add_tested] at h
  rw [add_fresh]
  refine { h with
    body := fun _ => rfl
    closing := fun _ => rfl
    opening := ?_
    agree := fun _ hbody => absurd trivial hbody
    pursued := ?_
    tested := fun _ => .inr (.inl trivial)
    asked := fun _ _ => .inl trivial }
  · intro hopening
    exact absurd trivial (h.opening hopening).2
  · intro _ hopen
    rcases h.tested trivial with hnot | hbody | hclosed
    · refine .inr ⟨trivial, ?_⟩
      cases hclosing : f.isClosing with
      | false => rfl
      | true => simp [h.closing hclosing] at hnot
    · exact (h.pursued hbody hopen).imp id fun hfresh => ⟨trivial, hfresh.2⟩
    · simp [hclosed] at hopen

lemma Settled.check (h : Settled f (o.add .fresh)) (hopen : f.isOpen = true) :
    Settled f (o.add .checked) := by
  rw [add_fresh] at h
  rw [add_checked]
  exact { h with armed := fun _ => h.usable hopen }

/-- `connection::close` finds the connection not open, or another closing it. -/
lemma Settled.leave {φ : Phase} (hφ : φ = .fresh ∨ φ = .checked) (h : Settled f (o.add φ))
    (hleft : f.isOpen = false ∨ f.isClosing = true) : Settled f (o.add .leaving) := by
  have hfresh : Settled f (o.add .fresh) := by
    rcases hφ with rfl | rfl
    · exact h
    · rw [add_checked] at h
      rw [add_fresh]
      exact { h with armed := fun _ => h.armed trivial }
  rw [add_fresh] at hfresh
  rw [add_leaving]
  refine { hfresh with pursued := ?_ }
  intro _ hopen
  rcases hfresh.pursued trivial hopen with hcommitted | ⟨-, hnot⟩
  · exact .inl hcommitted
  · simp [hopen, hnot] at hleft

lemma Settled.commit (h : Settled f (o.add .checked)) :
    Settled { f with isClosing := true } (o.add .writing) := by
  rw [add_checked] at h
  rw [add_writing]
  exact { h with
    closing := fun _ => h.body trivial
    pursued := fun _ _ => .inl trivial
    owed := fun _ _ => .inr trivial
    armed := fun _ => h.armed trivial }

/-- The write of `close` goes out if the socket is open; if it is not, another has written the
frame. -/
lemma Settled.write (h : Settled f (o.add .writing)) :
    Settled { f with closeWritten := f.closeWritten || f.socketOpen } (o.add .written) := by
  rw [add_writing] at h
  rw [add_written]
  have hwritten : (f.closeWritten || f.socketOpen) = true := by
    rw [Bool.or_eq_true]
    exact (h.armed trivial).symm
  exact { h with
    owed := fun _ _ => .inl hwritten
    sent := fun _ => hwritten
    usable := fun _ => .inr hwritten
    armed := fun _ => .inr hwritten }

lemma Settled.clear (h : Settled f (o.add .written)) :
    Settled { f with isOpen := false } (o.add .cleared) := by
  rw [add_written] at h
  rw [add_cleared]
  refine { h with
    opening := ?_
    agree := fun _ hbody => absurd trivial hbody
    pursued := fun _ hopen => by cases hopen
    tested := fun _ => .inr (.inl trivial)
    asked := fun _ _ => .inl trivial
    owed := fun _ _ => .inl (h.sent trivial)
    usable := fun hopen => by cases hopen
    shutting := fun _ => rfl }
  intro hopening
  exact absurd trivial (h.opening hopening).2

lemma Settled.shut (h : Settled f (o.add .cleared)) :
    Settled { f with socketOpen := false } (o.add .cleared) := by
  rw [add_cleared] at h ⊢
  exact { h with usable := fun _ => .inr (h.sent trivial), armed := fun _ => .inr (h.sent trivial) }

lemma Settled.join (h : Settled f (o.add .cleared)) : Settled f (o.add .leaving) := by
  rw [add_cleared] at h
  rw [add_leaving]
  exact { h with sent := fun _ => h.sent trivial }

/-- `client::close` clears `is_open_`: so is the connection's, or another is at it. -/
lemma Settled.finish (ho : o.Coherent) (h : Settled f (o.add .leaving)) :
    Settled { f with clientOpen := false } (o.add .idle) := by
  rw [add_leaving] at h
  rw [add_idle]
  have hother : f.isOpen = true → o.body := by
    intro hopen
    rcases h.pursued trivial hopen with hcommitted | ⟨hunmarked, -⟩
    · exact ho.committed hcommitted
    · exact ho.unmarked hunmarked
  refine { h with
    body := fun _ => h.body trivial
    opening := ?_
    agree := ?_
    pursued := fun _ => h.pursued trivial
    tested := ?_
    asked := fun _ hopen => .inl (hother hopen) }
  · intro hopening
    exact absurd trivial (h.opening hopening).2
  · intro _ hnone
    cases hopen : f.isOpen with
    | false => rfl
    | true => exact absurd (hother hopen) hnone
  · intro _
    cases hopen : f.isOpen with
    | false => exact .inr (.inr rfl)
    | true => exact .inr (.inl (hother hopen))

lemma Settled.dialled (h : Settled f (o.add .idle)) :
    Settled { f with socketOpen := true } (o.add .idle) :=
  { h with usable := fun _ => .inl rfl, armed := fun _ => .inl rfl }

lemma Settled.missed (ho : o.Coherent) (h : Settled f (o.add .idle)) (hclosed : f.isOpen = false)
    (hnone : ¬o.closing) : Settled { f with socketOpen := false } (o.add .idle) := by
  rw [add_idle] at h ⊢
  refine { h with usable := fun hopen => ?_, armed := fun harmed => ?_ }
  · exact absurd hopen (Bool.eq_false_iff.mp hclosed)
  · exact absurd (ho.body (ho.armed harmed)) hnone

lemma Settled.activate (ho : o.Coherent) (h : Settled f (o.add .idle)) (hnone : ¬o.closing)
    (hsocket : f.socketOpen = true) (hquiet : ¬o.shutting) :
    Settled { f with isOpen := true, asked := false, closeWritten := false } (o.add .opening) := by
  rw [add_idle] at h
  rw [add_opening]
  refine ⟨h.body, h.closing, fun _ => ⟨rfl, hnone⟩, fun hopening => absurd trivial hopening,
    ?_, ?_, ?_, ?_, ?_, fun _ => .inl hsocket, fun _ => .inl hsocket,
    fun hshutting => absurd hshutting hquiet⟩
  · intro hbody
    exact absurd (ho.body hbody) hnone
  · intro htested
    exact absurd (ho.tested htested) hnone
  · intro hasked
    cases hasked
  · intro hasked
    cases hasked
  · intro hsent
    exact absurd (ho.body (ho.sent hsent)) hnone

lemma Settled.opened (h : Settled f (o.add .opening)) :
    Settled { f with clientOpen := true } (o.add .idle) := by
  rw [add_opening] at h
  rw [add_idle]
  obtain ⟨hopen, hnone⟩ := h.opening trivial
  refine { h with opening := fun _ => ⟨hopen, hnone⟩, agree := fun _ _ => hopen.symm, asked := ?_ }
  intro hasked _
  rcases h.asked hasked hopen with hbody | ⟨hclosing, -⟩
  · exact .inl hbody
  · exact absurd hclosing hnone

/-- The reader writes a CLOSE frame, or does not get it out. -/
lemma Settled.answer {p : Present} (h : Settled f p) (passed : Bool) :
    Settled { f with closeWritten := f.closeWritten || passed } p := by
  have hmono : f.closeWritten = true → (f.closeWritten || passed) = true := by
    intro hwritten
    rw [hwritten, Bool.true_or]
  exact { h with
    owed := fun hasked hclosed => (h.owed hasked hclosed).imp hmono id
    sent := fun hsent => hmono (h.sent hsent)
    usable := fun hopen => (h.usable hopen).imp id hmono
    armed := fun harmed => (h.armed harmed).imp id hmono }

/-- The reader clears the connection's `is_open_` while another is closing it. -/
lemma Settled.ended (ho : o.Coherent) (h : Settled f o) (hending : o.writing ∨ o.sent) :
    Settled { f with isOpen := false } o := by
  have hbody : o.body := by
    rcases hending with hwriting | hsent
    · exact ho.committed (ho.writing hwriting)
    · exact ho.sent hsent
  refine { h with
    opening := ?_
    agree := fun _ hnone => absurd hbody hnone
    pursued := fun _ hopen => by cases hopen
    tested := fun _ => .inr (.inl hbody)
    asked := fun _ _ => .inl hbody
    owed := ?_
    usable := fun hopen => by cases hopen
    shutting := fun _ => rfl }
  · intro hopening
    exact absurd (ho.body hbody) (h.opening hopening).2
  · intro _ _
    rcases hending with hwriting | hsent
    · exact .inr hwriting
    · exact .inl (h.sent hsent)

/-- `fail_with_close` shuts the socket: the connection is closed, and nobody has its frame to
write. -/
lemma Settled.down (h : Settled f (o.add .shutting)) (hnone : ¬o.armed) :
    Settled { f with socketOpen := false } (o.add .idle) := by
  rw [add_shutting] at h
  rw [add_idle]
  refine { h with
    usable := fun hopen => ?_
    armed := fun harmed => absurd harmed hnone
    shutting := fun _ => h.shutting trivial }
  exact absurd hopen (Bool.eq_false_iff.mp (h.shutting trivial))

end Shifts

/-- **One step and the flags.** -/
lemma Settled.shift {s : System} {t : Thread} {φ φ' : Phase} {f' : Flags} {o : Present}
    (ho : o.Coherent) (h : Settled s.toFlags (o.add φ)) (hshift : Shift s t φ f' φ')
    (hclosing : o.closing → s.has Phase.closing) (harmed : o.armed → s.has Phase.armed)
    (hshutting : o.shutting → s.has Phase.closing)
    (hfatal : φ.fatal = true → s.isClosing = true ∧ (o.writing ∨ o.sent)) :
    Settled f' (o.add φ') := by
  cases hshift with
  | stay => exact h
  | dialled => exact h.dialled
  | missed hnone => exact h.missed ho hnone.1 fun hother => hnone.2 (hclosing hother)
  | refuse hrefused => exact h.refuse hrefused
  | test hnot => exact h.test hnot
  | enter => exact h.enter
  | check hopen => exact h.check hopen
  | leave hφ hleft => exact Settled.leave hφ h hleft
  | commit => exact h.commit
  | write => exact h.write
  | clear => exact h.clear
  | shut => exact h.shut
  | join => exact h.join
  | finish => exact h.finish ho
  | activate hnone =>
      exact h.activate ho (fun hother => hnone.1 (hclosing hother)) hnone.2
        fun hother => hnone.1 (hshutting hother)
  | opened => exact h.opened
  | poise => exact h
  | drop hφ => rcases hφ with rfl | rfl <;> exact h
  | meet hφ => rcases hφ with rfl | rfl <;> exact h
  | mark =>
      -- in an orderly run the session ends with the flag set, so setting it changes nothing
      have hsame : ({ s.toFlags with isClosing := true } : Flags) = s.toFlags := by
        rw [← (hfatal rfl).1]
      rw [hsame]
      exact h
  | answer _ passed => exact h.answer passed
  | ended =>
      rw [add_ending] at h
      rw [add_idle]
      exact h.ended ho (hfatal rfl).2
  | failed =>
      rw [add_failing] at h
      rw [add_shutting]
      exact { h.ended ho (hfatal rfl).2 with shutting := fun _ => rfl }
  | down hnone => exact h.down fun hother => hnone (harmed hother)

section Run

/-! One step of thread `t`. -/

variable {s : System} {t : Thread} {arrival : Arrival} {ok : Bool} {op : Op} {rest : List Op}
  {below : List Frame}

lemma present_of_update {s' : System} {new : List Frame} {φ : Phase}
    (hstack : s'.stack = Function.update s.stack t (new ++ below))
    (hnew : ∀ P : Phase → Bool, P .idle = false →
      ((∃ f ∈ new, P f.phase = true) ↔ P φ = true)) :
    Present.of s'.has = (Present.of (s.others t below)).add φ := by
  unfold Present.of Present.add
  congr 1 <;> exact propext (has_of_update hstack (hnew _ rfl))

lemma others_coherent : (Present.of (s.others t below)).Coherent where
  body := others_mono Phase.body Phase.closing (by intro φ; cases φ <;> decide)
  committed := others_mono Phase.committed Phase.body (by intro φ; cases φ <;> decide)
  unmarked := others_mono Phase.unmarked Phase.body (by intro φ; cases φ <;> decide)
  armed := others_mono Phase.armed Phase.body (by intro φ; cases φ <;> decide)
  tested := others_mono (Phase.is .tested) Phase.closing (by intro φ; cases φ <;> decide)
  writing := others_mono (Phase.is .writing) Phase.committed (by intro φ; cases φ <;> decide)
  sent := others_mono Phase.sent Phase.body (by intro φ; cases φ <;> decide)

lemma exists_entered (op : Op) (rest : List Op) (P : Phase → Bool) (hP : P .idle = false) :
    (∃ f ∈ entered op ++ [.code rest], P f.phase = true) ↔ P (phase rest) = true := by
  have hentered : ∀ f ∈ entered op, P f.phase = false := by
    intro f hf
    unfold entered at hf
    split at hf
    · rw [List.mem_singleton] at hf
      rw [hf]
      exact hP
    · cases hf
  constructor
  · rintro ⟨f, hf, hPf⟩
    rcases List.mem_append.mp hf with hin | hin
    · rw [hentered f hin] at hPf
      cases hPf
    · rw [List.mem_singleton] at hin
      rw [hin] at hPf
      exact hPf
  · intro hrest
    exact ⟨.code rest, by simp, hrest⟩

lemma effect_stack (s : System) (t : Thread) (passed : Bool) (op : Op) :
    (s.effect t passed op).stack = s.stack := by
  unfold effect
  split <;> rfl

lemma ran_stack : (s.ran t arrival ok op rest below).stack =
    Function.update s.stack t
      ((entered op ++ [.code (after arrival (s.passes ok op) rest op)]) ++ below) := by
  rw [ran, put, effect_stack, List.append_assoc]
  rfl

lemma stack_eq_update (hstack : s.stack t = .code (op :: rest) :: below) :
    s.stack = Function.update s.stack t ([.code (op :: rest)] ++ below) := by
  rw [List.singleton_append, ← hstack, Function.update_eq_self]

/-- An entry of a thread after a step of it. -/
lemma mem_ran {f : Frame} {u : Thread} (hf : f ∈ (s.ran t arrival ok op rest below).stack u) :
    (u = t ∧ (f = .handler ∨ f = .code (after arrival (s.passes ok op) rest op) ∨ f ∈ below)) ∨
      (u ≠ t ∧ f ∈ s.stack u) := by
  rw [ran_stack] at hf
  rcases eq_or_ne u t with rfl | hne
  · rw [Function.update_self, List.append_assoc, List.mem_append, List.singleton_append,
      List.mem_cons] at hf
    refine .inl ⟨rfl, hf.imp (fun hin => ?_) id⟩
    unfold entered at hin
    split at hin
    · exact List.mem_singleton.mp hin
    · cases hin
  · rw [Function.update_of_ne hne] at hf
    exact .inr ⟨hne, hf⟩

variable (h : s.Inv) (hstack : s.stack t = .code (op :: rest) :: below)

include h hstack

lemma Inv.place : op :: rest ∈ Client.places :=
  h.places t (.code (op :: rest)) (by rw [hstack]; exact List.mem_cons_self) _ rfl

omit h in
lemma has_of_stack {P : Phase → Bool} (hP : P (phase (op :: rest)) = true) : s.has P :=
  ⟨t, .code (op :: rest), by rw [hstack]; exact List.mem_cons_self, hP⟩

/-- Where the reader ends a session, the application's thread has written the CLOSE frame or is
going to. -/
lemma Inv.writing_or_sent (hfatal : (phase (op :: rest)).fatal = true) :
    s.isClosing = true ∧
      (s.others t below (Phase.is .writing) ∨ s.others t below Phase.sent) := by
  obtain ⟨hclosing, f, hf, hjoining⟩ := h.fatal (has_of_stack hstack hfatal)
  refine ⟨hclosing, ?_⟩
  have hne : Thread.main ≠ t := by
    rintro rfl
    have hquiet := h.main (.code (op :: rest)) (by rw [hstack]; exact List.mem_cons_self)
    exact Bool.eq_false_iff.mp hquiet (Phase.ofReader_of_fatal hfatal)
  have hcases : Phase.is .writing f.phase = true ∨ f.phase.sent = true := by
    cases hφ : f.phase <;> simp_all [Phase.joining, Phase.is, Phase.sent]
  rcases hcases with hwriting | hsent
  · exact .inl (.inr ⟨.main, hne, f, hf, hwriting⟩)
  · exact .inr (.inr ⟨.main, hne, f, hf, hsent⟩)

omit hstack in
lemma Inv.closing_of_shutting (hshutting : s.has (Phase.is .shutting)) : s.has Phase.closing := by
  obtain ⟨u, f, hf, hP⟩ := hshutting
  have hφ : f.phase = .shutting := by simpa [Phase.is] using hP
  obtain ⟨-, g, hg, hjoining⟩ := h.fatal ⟨u, f, hf, by rw [hφ]; rfl⟩
  refine ⟨.main, g, hg, ?_⟩
  cases hψ : g.phase <;> simp_all [Phase.joining, Phase.closing, Phase.body]

variable (hshift : Shift s t (phase (op :: rest)) (s.effect t (s.passes ok op) op).toFlags
  (phase (after arrival (s.passes ok op) rest op)))

include hshift

lemma Inv.settled_ran :
    Settled (s.ran t arrival ok op rest below).toFlags
      (.of (s.ran t arrival ok op rest below).has) := by
  have hbefore : Present.of s.has =
      (Present.of (s.others t below)).add (phase (op :: rest)) := by
    apply present_of_update (stack_eq_update hstack)
    intro P _
    simp [Frame.phase]
  have hthere : ∀ P, s.others t below P → s.has P := by
    intro P hothers
    exact (has_of_update (stack_eq_update hstack) (φ := phase (op :: rest))
      (by simp [Frame.phase])).mpr (.inr hothers)
  rw [present_of_update ran_stack (exists_entered op _)]
  exact Settled.shift others_coherent (hbefore ▸ h.settled) hshift (hthere _) (hthere _)
    (fun hshutting => h.closing_of_shutting (hthere _ hshutting)) (h.writing_or_sent hstack)

omit h in
/-- The application's thread is still going to join the reader, or the reader has ended. -/
lemma joins_ran (hjoins : s.joins) :
    (s.ran t arrival ok op rest below).joins ∨ (t = .main ∧ s.stack .reader = []) := by
  obtain ⟨f, hf, hjoining⟩ := hjoins
  rcases eq_or_ne Thread.main t with rfl | hne
  · rw [hstack, List.mem_cons] at hf
    rcases hf with rfl | hf
    · rcases hshift.joining hjoining with hnext | hover
      · refine .inl ⟨.code (after arrival (s.passes ok op) rest op), ?_, hnext⟩
        rw [ran_stack, Function.update_self]
        simp
      · exact .inr ⟨rfl, hover rfl⟩
    · refine .inl ⟨f, ?_, hjoining⟩
      rw [ran_stack, Function.update_self]
      exact List.mem_append_right _ hf
  · refine .inl ⟨f, ?_, hjoining⟩
    rw [ran_stack, Function.update_of_ne hne]
    exact hf

omit hshift in
lemma Inv.ne_main (hφ : (phase (op :: rest)).ofReader = true) : t ≠ .main := by
  rintro rfl
  have hquiet := h.main (.code (op :: rest)) (by rw [hstack]; exact List.mem_cons_self)
  exact Bool.eq_false_iff.mp hquiet hφ

omit h hshift in
lemma mem_of_mem_below {f : Frame} (hf : f ∈ below) : f ∈ s.stack t := by
  rw [hstack]
  exact List.mem_cons_of_mem _ hf

lemma Inv.main_ran : ∀ f ∈ (s.ran t arrival ok op rest below).stack .main,
    f.phase.ofReader = false := by
  intro f hf
  rcases mem_ran hf with ⟨rfl, rfl | rfl | hin⟩ | ⟨-, hin⟩
  · rfl
  · exact hshift.ofReader (h.main (.code (op :: rest)) (by rw [hstack]; exact List.mem_cons_self))
  · exact h.main f (mem_of_mem_below hstack hin)
  · exact h.main f hin

omit hshift in
/-- A phase of the reader's own functions is one that the step leads to, or was there before, and
then the reader has not ended. -/
lemma Inv.source_ran {P : Phase → Bool} (hP : ∀ φ, P φ = true → φ.ofReader = true)
    (hhas : (s.ran t arrival ok op rest below).has P) :
    P (phase (after arrival (s.passes ok op) rest op)) = true ∨
      (s.has P ∧ ¬(t = .main ∧ s.stack .reader = [])) := by
  obtain ⟨u, f, hf, hPf⟩ := hhas
  have hreader := hP _ hPf
  rcases mem_ran hf with ⟨rfl, rfl | rfl | hin⟩ | ⟨hne, hin⟩
  · cases hreader
  · exact .inl hPf
  · refine .inr ⟨⟨u, f, mem_of_mem_below hstack hin, hPf⟩, ?_⟩
    rintro ⟨rfl, -⟩
    exact Bool.eq_false_iff.mp (h.main f (mem_of_mem_below hstack hin)) hreader
  · refine .inr ⟨⟨u, f, hin, hPf⟩, ?_⟩
    rintro ⟨rfl, hempty⟩
    cases u with
    | main => exact hne rfl
    | reader =>
        rw [hempty] at hin
        cases hin

lemma Inv.fatal_ran (hhas : (s.ran t arrival ok op rest below).has Phase.fatal) :
    (s.ran t arrival ok op rest below).isClosing = true ∧
      (s.ran t arrival ok op rest below).joins := by
  have hold : s.isClosing = true ∧ s.joins ∧ ¬(t = .main ∧ s.stack .reader = []) := by
    rcases h.source_ran hstack (fun φ => Phase.ofReader_of_fatal) hhas with hnext | ⟨hold, hnot⟩
    · rcases hshift.eq_of_fatal hnext with hφ | ⟨hφ, hclosing⟩
      · obtain ⟨hclosing, hjoins⟩ := h.fatal (has_of_stack hstack hφ)
        exact ⟨hclosing, hjoins,
          fun hover => h.ne_main hstack (Phase.ofReader_of_fatal hφ) hover.1⟩
      · have hjoins := h.poised (has_of_stack hstack (by simp [hφ, Phase.is])) hclosing
        exact ⟨hclosing, hjoins, fun hover => h.ne_main hstack (by rw [hφ]; rfl) hover.1⟩
    · obtain ⟨hclosing, hjoins⟩ := h.fatal hold
      exact ⟨hclosing, hjoins, hnot⟩
  obtain ⟨hclosing, hjoins, hnot⟩ := hold
  exact ⟨hshift.isClosing hclosing, (joins_ran hstack hshift hjoins).resolve_right hnot⟩

omit hshift in
/-- The reader does not wait for a frame below another function. -/
lemma Inv.not_poised (ht : t = .reader) (hφ : phase (op :: rest) ≠ .poised) :
    ¬s.has (Phase.is .poised) := by
  rintro ⟨u, f, hf, his⟩
  have hphase : f.phase = .poised := by simpa [Phase.is] using his
  subst ht
  cases u with
  | main =>
      have hquiet := h.main f hf
      rw [hphase] at hquiet
      cases hquiet
  | reader =>
      have htop := h.top f
      rw [hstack] at hf htop
      rcases List.mem_cons.mp hf with rfl | hin
      · exact hφ hphase
      · exact htop hin hphase

lemma Inv.poised_ran (hhas : (s.ran t arrival ok op rest below).has (Phase.is .poised))
    (hclosing' : (s.ran t arrival ok op rest below).isClosing = true) :
    (s.ran t arrival ok op rest below).joins := by
  have hold : s.has (Phase.is .poised) ∧ ¬(t = .main ∧ s.stack .reader = []) := by
    have hreader : ∀ φ, Phase.is .poised φ = true → φ.ofReader = true := by
      intro φ hφ
      cases φ <;> first | rfl | cases hφ
    rcases h.source_ran hstack hreader hhas with hnext | hold
    · rcases hshift.eq_of_poised (by simpa [Phase.is] using hnext) with hφ | hnot
      · exact ⟨has_of_stack hstack (by simp [hφ, Phase.is]),
          fun hover => h.ne_main hstack (by rw [hφ]; rfl) hover.1⟩
      · exact absurd hclosing' (Bool.eq_false_iff.mp hnot)
    · exact hold
  cases hclosing : s.isClosing with
  | true => exact (joins_ran hstack hshift (h.poised hold.1 hclosing)).resolve_right hold.2
  | false =>
      rcases hshift.eq_of_isClosing hclosing hclosing' with ⟨hφ, hφ'⟩ | hfatal
      · cases t with
        | main =>
            refine ⟨.code (after arrival (s.passes ok op) rest op), ?_, ?_⟩
            · rw [ran_stack, Function.update_self]
              simp
            · show (phase _).joining = true
              rw [hφ']
              rfl
        | reader => exact absurd hold.1 (h.not_poised hstack rfl (by rw [hφ]; decide))
      · obtain ⟨hcontra, -⟩ := h.fatal (has_of_stack hstack hfatal)
        exact absurd hcontra (Bool.eq_false_iff.mp hclosing)

omit hshift in
lemma Inv.top_ran : ∀ f ∈ ((s.ran t arrival ok op rest below).stack .reader).tail,
    f.phase ≠ .poised := by
  have hplace := h.place hstack
  intro f hf
  rcases eq_or_ne Thread.reader t with rfl | hne
  · have htop := h.top f
    rw [hstack, List.tail_cons] at htop
    rw [ran_stack, Function.update_self] at hf
    by_cases hinvoke : ∃ callback, op = .conn (.invoke callback)
    · obtain ⟨callback, rfl⟩ := hinvoke
      rcases List.mem_cons.mp hf with rfl | hin
      · have hfits := fits_of_place hplace
        show phase _ ≠ .poised
        rw [(after_of_place hplace arrival _).2]
        simpa [Phase.fits, Phase.next] using hfits
      · exact htop hin
    · have hnone : entered op = [] := by
        unfold entered
        split
        · exact absurd ⟨_, rfl⟩ hinvoke
        · rfl
      rw [hnone] at hf
      exact htop hf
  · rw [ran_stack, Function.update_of_ne hne] at hf
    exact h.top f hf

/-- **One instruction** of an orderly run. -/
lemma Inv.run : (s.ran t arrival ok op rest below).Inv := by
  refine ⟨?_, h.settled_ran hstack hshift, h.fatal_ran hstack hshift, h.poised_ran hstack hshift,
    h.main_ran hstack hshift, h.top_ran hstack⟩
  intro u f hf rest' hrest'
  subst hrest'
  rcases mem_ran hf with ⟨rfl, hin | hin | hin⟩ | ⟨-, hin⟩
  · cases hin
  · cases hin
    exact (after_of_place (h.place hstack) arrival _).1
  · exact h.places u _ (mem_of_mem_below hstack hin) rest' rfl
  · exact h.places u _ hin rest' rfl

end Run

section Calls

/-! A call, and a return. -/

variable {s s' : System} {t : Thread}

lemma others_stack (s : System) (t : Thread) (P : Phase → Bool) :
    s.others t (s.stack t) P ↔ s.has P := by
  constructor
  · rintro (⟨f, hf, hP⟩ | ⟨u, -, f, hf, hP⟩)
    · exact ⟨t, f, hf, hP⟩
    · exact ⟨u, f, hf, hP⟩
  · rintro ⟨u, f, hf, hP⟩
    rcases eq_or_ne u t with rfl | hne
    · exact .inl ⟨f, hf, hP⟩
    · exact .inr ⟨u, hne, f, hf, hP⟩

section Push

variable {program : List Op} (h : s.Inv)
  (hstack : s'.stack = Function.update s.stack t (.code program :: s.stack t))

include hstack

lemma mem_pushed {f : Frame} {u : Thread} (hf : f ∈ s'.stack u) :
    (u = t ∧ f = .code program) ∨ f ∈ s.stack u := by
  rw [hstack] at hf
  rcases eq_or_ne u t with rfl | hne
  · rw [Function.update_self, List.mem_cons] at hf
    exact hf.imp (fun heq => ⟨rfl, heq⟩) id
  · rw [Function.update_of_ne hne] at hf
    exact .inr hf

lemma has_pushed {P : Phase → Bool} : s'.has P ↔ P (phase program) = true ∨ s.has P := by
  have hnew : s'.stack = Function.update s.stack t ([.code program] ++ s.stack t) := hstack
  rw [← others_stack s t]
  exact has_of_update hnew (by simp [Frame.phase])

lemma present_pushed : Present.of s'.has = (Present.of s.has).add (phase program) := by
  unfold Present.of Present.add
  congr 1 <;> exact propext (has_pushed hstack)

lemma joins_pushed (hjoins : s.joins) : s'.joins := by
  obtain ⟨f, hf, hjoining⟩ := hjoins
  refine ⟨f, ?_, hjoining⟩
  rw [hstack]
  rcases eq_or_ne Thread.main t with rfl | hne
  · rw [Function.update_self]
    exact List.mem_cons_of_mem _ hf
  · rw [Function.update_of_ne hne]
    exact hf

include h

/-- A function is called, on a thread that is not waiting for a frame. -/
lemma Inv.push (hplace : program ∈ Client.places)
    (hsettled : Settled s'.toFlags ((Present.of s.has).add (phase program)))
    (hclosing : s'.isClosing = s.isClosing) (hfatal : (phase program).fatal = false)
    (hpoised : phase program ≠ .poised) (hmain : t = .main → (phase program).ofReader = false)
    (htop : ∀ f ∈ s.stack t, f.phase ≠ .poised) : s'.Inv := by
  refine ⟨?_, by rwa [present_pushed hstack], ?_, ?_, ?_, ?_⟩
  · intro u f hf rest hrest
    rcases mem_pushed hstack hf with ⟨-, heq⟩ | hold
    · rw [heq, Frame.code.injEq] at hrest
      rw [← hrest]
      exact hplace
    · exact h.places u f hold rest hrest
  · intro hhas
    rw [hclosing]
    -- the new frame is not one that has failed, nor one that is to join
    rcases (has_pushed hstack).mp hhas with hnew | hold
    · exact absurd hnew (Bool.eq_false_iff.mp hfatal)
    · exact (h.fatal hold).imp id (joins_pushed hstack)
  · intro hhas hisClosing
    rw [hclosing] at hisClosing
    rcases (has_pushed hstack).mp hhas with hnew | hold
    · exact absurd (by simpa [Phase.is] using hnew) hpoised
    · exact joins_pushed hstack (h.poised hold hisClosing)
  · intro f hf
    rcases mem_pushed hstack hf with ⟨ht, heq⟩ | hold
    · rw [heq]
      exact hmain ht.symm
    · exact h.main f hold
  · intro f hf
    rw [hstack] at hf
    rcases eq_or_ne Thread.reader t with rfl | hne
    · rw [Function.update_self, List.tail_cons] at hf
      exact htop f hf
    · rw [Function.update_of_ne hne] at hf
      exact h.top f hf

end Push

/-- A function or a handler returns. -/
lemma Inv.pop (h : s.Inv) {f : Frame} {below : List Frame} (hstack : s.stack t = f :: below)
    (hidle : f.phase = .idle) : (s.put t below).Inv := by
  have hput : (s.put t below).stack = Function.update s.stack t ([] ++ below) := rfl
  have hself : s.stack = Function.update s.stack t ([f] ++ below) := by
    rw [List.singleton_append, ← hstack, Function.update_eq_self]
  -- an idle frame counts for nothing
  have hhas : ∀ P : Phase → Bool, P .idle = false → ((s.put t below).has P ↔ s.has P) := by
    intro P hP
    rw [has_of_update hput (φ := .idle) (by simp [hP]),
      has_of_update hself (φ := .idle) (by simp [hidle])]
  have hsub : ∀ u, ∀ g ∈ (s.put t below).stack u, g ∈ s.stack u := by
    intro u g hg
    rw [hput] at hg
    rcases eq_or_ne u t with rfl | hne
    · rw [Function.update_self] at hg
      rw [hstack]
      exact List.mem_cons_of_mem _ hg
    · rwa [Function.update_of_ne hne] at hg
  have hjoins : s.joins → (s.put t below).joins := by
    rintro ⟨g, hg, hjoining⟩
    refine ⟨g, ?_, hjoining⟩
    rw [hput]
    rcases eq_or_ne Thread.main t with rfl | hne
    · rw [hstack, List.mem_cons] at hg
      rw [Function.update_self]
      rcases hg with rfl | hg
      · rw [hidle] at hjoining
        cases hjoining
      · exact hg
    · rwa [Function.update_of_ne hne]
  -- so what is present is the same with the frame and without it
  have hpresent : Present.of (s.put t below).has = Present.of s.has := by
    unfold Present.of
    congr 1 <;> exact propext (hhas _ rfl)
  refine ⟨fun u g hg => h.places u g (hsub u g hg), by rw [hpresent]; exact h.settled, ?_, ?_,
    fun g hg => h.main g (hsub _ g hg), ?_⟩
  · intro hnew
    exact (h.fatal ((hhas _ rfl).mp hnew)).imp id hjoins
  · intro hnew hclosing
    exact hjoins (h.poised ((hhas _ rfl).mp hnew) hclosing)
  · intro g hg
    rw [hput] at hg
    rcases eq_or_ne Thread.reader t with rfl | hne
    · rw [Function.update_self] at hg
      apply h.top g
      rw [hstack]
      exact List.mem_of_mem_tail hg
    · rw [Function.update_of_ne hne] at hg
      exact h.top g hg

end Calls

variable {s s' : System}

/-- **One step** of an orderly run. -/
lemma Inv.step {a : Act} (h : s.Inv) (horderly : s.Orderly a) (hstep : s.step a = some s') :
    s'.Inv := by
  cases a with
  | connect =>
      simp only [System.step] at hstep
      split at hstep
      · rename_i hstack
        cases hstep
        have hplace : Client.connect ∈ Client.places := by decide +kernel
        refine h.push (t := .main) (by rw [hstack]; rfl) hplace ?_ rfl (by decide) (by decide)
          (fun _ => by decide) (by simp [hstack])
        rw [show phase Client.connect = .idle from by decide, add_idle]
        exact h.settled
      · cases hstep
  | close t =>
      -- on either thread the call is pushed in the same way, above no frame that waits for a read
      have hcalled : (∀ f ∈ s.stack t, f.phase ≠ .poised) → (s.called t).Inv := by
        intro htop
        have hplace : Client.close ∈ Client.places := by decide +kernel
        refine h.push (t := t) rfl hplace ?_ rfl (by decide) (by decide) (fun _ => by decide) htop
        rw [show phase Client.close = .entering from by decide]
        exact h.settled.called horderly
      simp only [System.step] at hstep
      split at hstep
      · rename_i hstack
        split_ifs at hstep
        cases hstep
        exact hcalled (by simp [hstack])
      · rename_i below hstack
        cases hstep
        apply hcalled
        intro f hf hpoised
        cases t with
        | main =>
            have hquiet := h.main f hf
            rw [hpoised] at hquiet
            cases hquiet
        | reader =>
            have htop := h.top f
            rw [hstack] at hf htop
            rcases List.mem_cons.mp hf with rfl | hin
            · cases hpoised
            · exact htop hin hpoised
      · cases hstep
  | turn =>
      simp only [System.step] at hstep
      split at hstep
      · rename_i hstack
        split_ifs at hstep
        cases hstep
        have hplace : inConn Lifecycle.turn ∈ Client.places := by decide +kernel
        refine h.push (t := .reader) (by rw [hstack]; rfl) hplace ?_ rfl (by decide) (by decide)
          (fun ht => by cases ht) (by simp [hstack])
        rw [show phase (inConn Lifecycle.turn) = .turning from by decide, add_turning]
        exact h.settled
      · cases hstep
  | run t arrival ok =>
      simp only [System.step] at hstep
      split at hstep
      · rename_i op rest below hstack
        split_ifs at hstep with hblocked
        cases hstep
        exact h.run hstack (shift_of_run (h.place hstack) hstack horderly
          (Bool.eq_false_iff.mpr hblocked))
      · cases hstep
  | ret t =>
      simp only [System.step] at hstep
      split at hstep
      · rename_i below hstack
        cases hstep
        exact h.pop hstack (by decide)
      · rename_i below hstack
        cases hstep
        exact h.pop hstack rfl
      · cases hstep

lemma inv_new : new.Inv := by
  have hnone : ∀ P, ¬new.has P := by
    rintro P ⟨t, f, hf, -⟩
    cases hf
  have hsettled : Settled new.toFlags (.of new.has) :=
    { body := fun hhas => absurd hhas (hnone _)
      closing := fun hclosing => by cases hclosing
      opening := fun hhas => absurd hhas (hnone _)
      agree := fun _ _ => rfl
      pursued := fun hhas => absurd hhas (hnone _)
      tested := fun hhas => absurd hhas (hnone _)
      asked := fun hasked => by cases hasked
      owed := fun hasked => by cases hasked
      sent := fun hhas => absurd hhas (hnone _)
      usable := fun hopen => by cases hopen
      armed := fun hhas => absurd hhas (hnone _)
      shutting := fun hhas => absurd hhas (hnone _) }
  refine ⟨fun t f hf => ?_, hsettled, fun hhas => absurd hhas (hnone _),
    fun hhas => absurd hhas (hnone _), fun f hf => ?_, fun f hf => ?_⟩
  · cases hf
  · cases hf
  · cases hf

/-- A function that is not a call of the client is in none of the phases of one. -/
lemma phase_of_inCall {f : Frame} (h : f.inCall = false) :
    f.phase.closing = false ∧ Phase.is .opening f.phase = false := by
  cases f with
  | handler => exact ⟨rfl, rfl⟩
  | code rest =>
      have hclosed : Op.markClosed ∉ rest := by
        intro hmem
        exact Bool.eq_false_iff.mp h (List.any_eq_true.mpr ⟨_, hmem, rfl⟩)
      have hopen : Op.markOpen ∉ rest := by
        intro hmem
        exact Bool.eq_false_iff.mp h (List.any_eq_true.mpr ⟨_, hmem, rfl⟩)
      simp only [Frame.phase, phase, if_neg hclosed, if_neg hopen]
      split_ifs <;> exact ⟨rfl, rfl⟩

/-- **The client and its connection agree.**  In every state of an orderly run in which no call of
the client is under way, `is_open()` of the client is that of the connection; and when `close` was
called while the connection was open, a CLOSE frame was written and the connection is closed. -/
theorem session_agrees (s : System) (hrun : Runs step Orderly new s) (hidle : s.Idle) :
    s.clientOpen = s.isOpen ∧
      (s.asked = true → s.closeWritten = true ∧ s.isOpen = false) := by
  have hinv : s.Inv := hrun.invariant inv_new fun s a t h hC hstep => h.step hC hstep
  have hclosing : ¬s.has Phase.closing := by
    rintro ⟨t, f, hf, hphase⟩
    exact Bool.eq_false_iff.mp (phase_of_inCall (hidle t f hf)).1 hphase
  have hopening : ¬s.has (Phase.is .opening) := by
    rintro ⟨t, f, hf, hphase⟩
    exact Bool.eq_false_iff.mp (phase_of_inCall (hidle t f hf)).2 hphase
  have hsub : ∀ P : Phase → Bool, (∀ φ, P φ = true → φ.closing = true) → ¬s.has P := by
    rintro P hP ⟨t, f, hf, hphase⟩
    exact hclosing ⟨t, f, hf, hP _ hphase⟩
  have hbody : ¬s.has Phase.body := hsub _ (by intro φ; cases φ <;> decide)
  have hwriting : ¬s.has (Phase.is .writing) := hsub _ (by intro φ; cases φ <;> decide)
  refine ⟨hinv.settled.agree hopening hbody, fun hasked => ?_⟩
  have hclosed : s.isOpen = false := by
    apply Bool.eq_false_iff.mpr
    intro hopen
    rcases hinv.settled.asked hasked hopen with hthere | hthere
    · exact hbody hthere
    · exact hclosing hthere.1
  exact ⟨(hinv.settled.owed hasked hclosed).resolve_right hwriting, hclosed⟩

instance (s : System) (P : Phase → Bool) : Decidable (s.has P) :=
  decidable_of_iff
    ((∃ f ∈ s.stack .main, P f.phase = true) ∨ ∃ f ∈ s.stack .reader, P f.phase = true)
    ⟨fun h => h.elim (fun hmain => ⟨.main, hmain⟩) fun hreader => ⟨.reader, hreader⟩,
      fun ⟨t, h⟩ => match t with
        | .main => .inl h
        | .reader => .inr h⟩

/-- The next step of a thread. -/
def head (s : System) (t : Thread) : Option Op :=
  match s.stack t with
  | .code (op :: _) :: _ => some op
  | _ => none

lemma about_iff (s : System) (t : Thread) (op : Op) : s.head t = some op ↔ s.about t op := by
  constructor
  · intro h
    unfold head at h
    split at h
    · rename_i op' rest below hstack
      rw [Option.some.injEq] at h
      exact ⟨rest, below, h ▸ hstack⟩
    · cases h
  · rintro ⟨rest, below, hstack⟩
    rw [head, hstack]

instance (s : System) (t : Thread) (op : Op) : Decidable (s.about t op) :=
  decidable_of_iff _ (about_iff s t op)

/-- The phase of the function that a thread is in. -/
def headPhase (s : System) (t : Thread) : Option Phase :=
  match s.stack t with
  | .code rest :: _ => some (phase rest)
  | _ => none

lemma within_iff (s : System) (t : Thread) (φ : Phase) :
    s.headPhase t = some φ ↔ s.within t φ := by
  constructor
  · intro h
    unfold headPhase at h
    split at h
    · rename_i rest below hstack
      exact ⟨rest, below, hstack, Option.some.inj h⟩
    · cases h
  · rintro ⟨rest, below, hstack, rfl⟩
    rw [headPhase, hstack]

instance (s : System) (t : Thread) (φ : Phase) : Decidable (s.within t φ) :=
  decidable_of_iff _ (within_iff s t φ)

instance (s : System) (a : Act) : Decidable (s.Orderly a) :=
  match a with
  | .connect => inferInstanceAs (Decidable True)
  | .close _ => inferInstanceAs (Decidable (s.isOpen = true →
      ¬s.has (Phase.is .opening) ∧ (s.clientClosing = true → s.has Phase.body)))
  | .turn => inferInstanceAs (Decidable True)
  | .run t arrival ok => inferInstanceAs (Decidable
      ((s.about t .activate → ¬s.has Phase.closing ∧ s.socketOpen = true) ∧
        (s.about t .dial → ok = false → s.isOpen = false ∧ ¬s.has Phase.closing) ∧
        (s.about t (.conn .receive) → s.ends arrival = true → s.isClosing = true) ∧
        (s.within t .shutting → ¬s.has Phase.armed) ∧
        (s.about t (.conn .write) → s.within t .writing → ok = true)))
  | .ret _ => inferInstanceAs (Decidable True)

/-- What a run has come to: the flags, and what is under way. -/
def summary (s : System) : Flags × List Frame × List Frame :=
  (s.toFlags, s.stack .main, s.stack .reader)

lemma idle_of_stack {s : System} (hmain : s.stack .main = []) (hreader : s.stack .reader = []) :
    s.Idle := by
  intro t f hf
  cases t with
  | main =>
      rw [hmain] at hf
      cases hf
  | reader =>
      rw [hreader] at hf
      cases hf

end System

/-- So many steps of a thread, in which nothing fails. -/
def steps (t : Thread) (n : ℕ) : List Act := List.replicate n (.run t .silent true)

/-- The client connects, and the reader waits for a frame. -/
def connectAndWait : List Act :=
  .connect :: steps .main 4 ++ .ret .main :: steps .main 2 ++ .ret .main :: .turn ::
    steps .reader 3

/-- The application closes, and the read that fails then is the end of the reader. -/
def closeByCall : List Act :=
  connectAndWait ++ .close .main :: steps .main 11 ++ steps .reader 2 ++ .ret .reader ::
    steps .reader 2 ++ .ret .reader :: steps .main 2 ++ .ret .main :: steps .main 1 ++ [.ret .main]

theorem session_agrees_closeByCall :
    ∃ s, play System.step .new closeByCall = some s ∧ s.asked = true ∧
      s.clientOpen = s.isOpen ∧ s.closeWritten = true ∧ s.isOpen = false := by
  have hplay : (play System.step .new closeByCall).map System.summary =
      some (⟨false, true, false, true, false, true, true⟩, [], []) := by
    decide +kernel
  obtain ⟨s, hs, hsummary⟩ := Option.map_eq_some_iff.mp hplay
  simp only [System.summary, Prod.mk.injEq] at hsummary
  obtain ⟨hflags, hmain, hreader⟩ := hsummary
  have hasked : s.asked = true := congrArg Flags.asked hflags
  have hagree := System.session_agrees s
    (runs_of_play (D := fun s a => decide (s.Orderly a)) _ (fun s a h => of_decide_eq_true h) _ hs
      (by decide +kernel)) (System.idle_of_stack hmain hreader)
  exact ⟨s, hs, hasked, hagree.1, hagree.2 hasked⟩

/-- The stream ends. -/
def endOfStream : List Act :=
  connectAndWait ++ [.run .reader .lost true] ++ steps .reader 1 ++ .ret .reader ::
    steps .reader 2 ++ [.ret .reader]

/-- The handler of `on_open` closes the client. -/
def closeInOnOpen : List Act :=
  .connect :: steps .main 4 ++ .close .main :: steps .main 1 ++ [.ret .main, .ret .main] ++
    steps .main 2 ++ [.ret .main]

/-- **The two can differ.**  After the stream has ended the client is open and its connection is
not; and a `close` in `on_open` is made while the connection is open, and leaves it so. -/
theorem session_disagrees :
    (¬∀ acts s, play System.step .new acts = some s → s.Idle → s.clientOpen = s.isOpen) ∧
      ¬∀ acts s, play System.step .new acts = some s → s.Idle → s.asked = true →
        s.closeWritten = true ∧ s.isOpen = false := by
  constructor
  · intro h
    have hplay : (play System.step .new endOfStream).map System.summary =
        some (⟨true, false, false, false, true, false, false⟩, [], []) := by
      decide +kernel
    obtain ⟨s, hs, hsummary⟩ := Option.map_eq_some_iff.mp hplay
    simp only [System.summary, Prod.mk.injEq] at hsummary
    obtain ⟨hflags, hmain, hreader⟩ := hsummary
    have hagree := h endOfStream s hs (System.idle_of_stack hmain hreader)
    rw [hflags] at hagree
    cases hagree
  · intro h
    have hplay : (play System.step .new closeInOnOpen).map System.summary =
        some (⟨true, false, true, false, true, true, false⟩, [], []) := by
      decide +kernel
    obtain ⟨s, hs, hsummary⟩ := Option.map_eq_some_iff.mp hplay
    simp only [System.summary, Prod.mk.injEq] at hsummary
    obtain ⟨hflags, hmain, hreader⟩ := hsummary
    have hclosed := h closeInOnOpen s hs (System.idle_of_stack hmain hreader)
      (congrArg Flags.asked hflags)
    rw [hflags] at hclosed
    cases hclosed.2

/-- A violation is met while `close` waits for the mutex, and `fail_with_close` shuts the socket. -/
def closeMeetsViolation : List Act :=
  connectAndWait ++ .close .main :: steps .main 6 ++ .run .reader .violation true ::
    steps .reader 1 ++ .ret .reader :: steps .reader 4 ++ steps .main 5

/-- The connection is closed, and nothing was written. -/
example : (play System.step .new closeMeetsViolation).map (fun s => s.toFlags) =
    some ⟨true, true, false, true, false, true, false⟩ := by
  decide +kernel

end Wscpp.Cpp.Lifecycle.Client
