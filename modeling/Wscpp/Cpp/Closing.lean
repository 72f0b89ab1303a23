import Wscpp.Cpp.Threads

/-!
# The closing handshake of a wscpp connection

Whatever the threads of `Wscpp.Cpp.Threads` do, at most one CLOSE frame should be written and
nothing after it.  Three functions write one: `close`, `fail_with_close` and
`handle_close_frame`.  The first two test both flags, then set `is_closing_`, write, clear
`is_open_` and close the socket; the third tests nothing, writes and then clears `is_open_`.  So a
function that comes after another has set its flag is stopped, or finds the socket closed, and what
is left are overlaps (`ClosesApart`):

* `close` or `fail_with_close` passes its second test while another of them is past it and has not
  yet set `is_closing_`, or while an echo is under way;
* a CLOSE frame is received while one of the two is between its tests and `socket_.close()`;
* an echo clears `is_open_` while one of the two is between its tests.

The law holds in the runs without these, in which moreover frames are built alone, as for
`frames_intact`, and no sender takes the mutex between the echo and `is_open_ = false`
(`SparesEcho`).

That the flags do stop whatever comes later is the invariant `Closing`.  A CLOSE frame on the wire
shows: `is_open_` is cleared, or `is_closing_` is set and its writer has yet to close the socket, or
an echo is about to clear `is_open_` (`Closing.traces`).  A function between its tests, a reader
that waits for a frame and a sender that has the mutex have each seen the flags a while ago, and for
each there is a clause saying what they still mean.
-/

namespace Wscpp.Cpp

open Moves

/-! ## Places -/

/-- The mutex is held. -/
def locked (rest : List Instr) : Bool := rest.contains .unlock && !rest.contains .lock

/-- The flags that are still to be tested. -/
def checks (rest : List Instr) : List Flag :=
  rest.filterMap fun
    | .require flag _ => some flag
    | _ => none

/-- Nothing is left to be tested or awaited before the write. -/
def unchecked (rest : List Instr) : Bool := (checks rest).isEmpty && !rest.contains .receive

/-- The flag that is tested. -/
def Instr.tested? : Instr → Option Flag
  | require flag _ => some flag
  | _ => none

/-- Where a test leads when it fails. -/
def Instr.exit? : Instr → Option Exit
  | require _ x => some x
  | _ => none

namespace Kind

/-- The function is past its tests, and will write a CLOSE frame. -/
def committed (k : Kind) (rest : List Instr) : Bool :=
  k.closes && rest.contains .write && unchecked rest

/-- The function has set `is_closing_`, and will write a CLOSE frame. -/
def flagged (k : Kind) (rest : List Instr) : Bool :=
  (k == .close || k == .fail) && k.committed rest && !rest.contains .setClosing

/-- `handle_close_frame` is past its write, and will clear `is_open_`. -/
def echoing (k : Kind) (rest : List Instr) : Bool :=
  k == .echo && rest.contains .clearOpen && !rest.contains .write

/-- The function tests the flags before it writes a CLOSE frame. -/
def tests (k : Kind) : Bool := k == .close || k == .fail

/-- The function has passed its test of `is_open_` and not yet made that of `is_closing_`. -/
def betweenTests (k : Kind) (rest : List Instr) : Bool := k.tests && checks rest == [.notClosing]

/-- The function has passed its tests and not yet set `is_closing_`. -/
def unmarked (k : Kind) (rest : List Instr) : Bool :=
  k.tests && unchecked rest && rest.contains .setClosing

/-- The function is between its tests and `socket_.close()`. -/
def closing (k : Kind) (rest : List Instr) : Bool :=
  k.tests && unchecked rest && rest.contains .closeSocket

/-- The function is on its way to `socket_.close()`, with `is_closing_` set or past a test that
failed. -/
def ending (k : Kind) (rest : List Instr) : Bool :=
  k.closing rest && !rest.contains .setClosing

/-- The reader waits for the CLOSE frame that it will answer. -/
def awaiting (k : Kind) (rest : List Instr) : Bool :=
  k == .echo && rest.head? == some .receive

/-- `handle_close_frame` has received its frame and not yet cleared `is_open_`. -/
def answering (k : Kind) (rest : List Instr) : Bool :=
  k == .echo && unchecked rest && rest.contains .clearOpen

/-- `handle_close_frame` has received its frame and not yet written its own. -/
def echoes (k : Kind) (rest : List Instr) : Bool := k == .echo && k.committed rest

/-- A function is at `is_open_ = false` that is none of those that get there by their program. -/
def strayClear (k : Kind) (rest : List Instr) : Bool :=
  rest.head? == some .clearOpen && !(k == .echo) && !(k == .lost) && !k.ending rest

lemma locked_unlock {k : Kind} {rest : List Instr} (h : .unlock :: rest ∈ k.positions) :
    locked (.unlock :: rest) = true ∧ locked rest = false := by
  have table : ∀ x ∈ k.transitions, x.1 = .unlock →
      locked (.unlock :: x.2) = true ∧ locked x.2 = false := by
    cases k <;> decide
  exact table _ (mem_transitions h) rfl

/-- The place of a write: under the mutex, past all tests, and the last. -/
lemma write_facts {k : Kind} {rest : List Instr} (h : .write :: rest ∈ k.positions) :
    locked (.write :: rest) = true ∧ checks (.write :: rest) = [] ∧ rest.contains .write = false ∧
      k.committed (.write :: rest) = k.closes := by
  have table : ∀ x ∈ k.transitions, x.1 = .write →
      locked (.write :: x.2) = true ∧ checks (.write :: x.2) = [] ∧ x.2.contains .write = false ∧
        k.committed (.write :: x.2) = k.closes := by
    cases k <;> decide
  exact table _ (mem_transitions h) rfl

/-- A CLOSE frame is written with `is_closing_` set and the socket to be closed, or by the echo. -/
lemma close_write_facts {k : Kind} {rest : List Instr} (h : .write :: rest ∈ k.positions)
    (hk : k.closes = true) :
    (k.flagged (.write :: rest) = true ∧ k.closing rest = true) ∨
      (k.echoes (.write :: rest) = true ∧ k.echoing rest = true) := by
  have table : ∀ x ∈ k.transitions, x.1 = .write → k.closes = true →
      (k.flagged (.write :: x.2) = true ∧ k.closing x.2 = true) ∨
        (k.echoes (.write :: x.2) = true ∧ k.echoing x.2 = true) := by
    cases k <;> decide
  exact table _ (mem_transitions h) rfl hk

lemma ne_of_write {k : Kind} {rest : List Instr} (h : .write :: rest ∈ k.positions) :
    k ≠ .unsent ∧ k ≠ .lost := by
  have table : ∀ x ∈ k.transitions, x.1 = .write → k ≠ .unsent ∧ k ≠ .lost := by
    cases k <;> decide
  exact table _ (mem_transitions h) rfl

lemma checks_lock {k : Kind} {rest : List Instr} (h : .lock :: rest ∈ k.positions)
    (hk : k.closes = false) (flag : Flag) : flag ∈ checks rest := by
  have table : ∀ x ∈ k.transitions, x.1 = .lock → k.closes = false →
      .isOpen ∈ checks x.2 ∧ .notClosing ∈ checks x.2 := by
    cases k <;> decide
  obtain ⟨hopen, hclosing⟩ := table _ (mem_transitions h) rfl hk
  cases flag with
  | isOpen => exact hopen
  | notClosing => exact hclosing

lemma locked_exit {k : Kind} {flag : Flag} {x : Exit} {rest : List Instr}
    (h : .require flag x :: rest ∈ k.positions) (hx : locked x.rest = true) :
    locked (.require flag x :: rest) = true := by
  have table : ∀ y ∈ k.transitions, ∀ x ∈ y.1.exit?, locked x.rest = true →
      locked (y.1 :: y.2) = true := by
    cases k <;> decide
  exact table _ (mem_transitions h) x rfl hx

lemma flagged_of_rest {k : Kind} {i : Instr} {rest : List Instr} (h : i :: rest ∈ k.positions)
    (hi : i ≠ .setClosing) (hf : k.flagged rest = true) : k.flagged (i :: rest) = true := by
  have table : ∀ x ∈ k.transitions, x.1 ≠ .setClosing → k.flagged x.2 = true →
      k.flagged (x.1 :: x.2) = true := by
    cases k <;> decide
  exact table _ (mem_transitions h) hi hf

lemma echoing_rest {k : Kind} {i : Instr} {rest : List Instr} (h : i :: rest ∈ k.positions)
    (he : k.echoing (i :: rest) = true) :
    i = .clearOpen ∨ (i = .unlock ∧ k.echoing rest = true) := by
  have table : ∀ x ∈ k.transitions, k.echoing (x.1 :: x.2) = true →
      x.1 = .clearOpen ∨ (x.1 = .unlock ∧ k.echoing x.2 = true) := by
    cases k <;> decide
  exact table _ (mem_transitions h) he

/-- A function begins outside of everything. -/
lemma program_facts (k : Kind) : locked k.program = false ∧ k.committed k.program = false := by
  cases k <;> decide

/-- A function gets between its tests by passing the first of them. -/
lemma betweenTests_of_rest {k : Kind} {i : Instr} {rest : List Instr} (h : i :: rest ∈ k.positions)
    (hp : k.betweenTests rest = true) : i.tested? = some .isOpen := by
  have table : ∀ x ∈ k.transitions, k.betweenTests x.2 = true → x.1.tested? = some .isOpen := by
    cases k <;> decide
  exact table _ (mem_transitions h) hp

/-- The reader waits once `is_open_` has been found set. -/
lemma awaiting_of_rest {k : Kind} {i : Instr} {rest : List Instr} (h : i :: rest ∈ k.positions)
    (hp : k.awaiting rest = true) : i.tested? = some .isOpen := by
  have table : ∀ x ∈ k.transitions, k.awaiting x.2 = true → x.1.tested? = some .isOpen := by
    cases k <;> decide
  exact table _ (mem_transitions h) hp

/-- What takes a function past its tests: the second of them, or the frame that the echo answers. -/
lemma committed_of_rest {k : Kind} {i : Instr} {rest : List Instr} (h : i :: rest ∈ k.positions)
    (hp : k.committed rest = true) :
    k.committed (i :: rest) = true ∨
      (i.tested? = some .notClosing ∧ k.betweenTests (i :: rest) = true) ∨
        k.awaiting (i :: rest) = true := by
  have table : ∀ x ∈ k.transitions, k.committed x.2 = true → k.committed (x.1 :: x.2) = true ∨
      (x.1.tested? = some .notClosing ∧ k.betweenTests (x.1 :: x.2) = true) ∨
        k.awaiting (x.1 :: x.2) = true := by
    cases k <;> decide
  exact table _ (mem_transitions h) hp

lemma echoes_of_rest {k : Kind} {i : Instr} {rest : List Instr} (h : i :: rest ∈ k.positions)
    (hp : k.echoes rest = true) :
    i ≠ .clearOpen ∧ (k.awaiting (i :: rest) = true ∨ k.echoes (i :: rest) = true) := by
  have table : ∀ x ∈ k.transitions, k.echoes x.2 = true →
      x.1 ≠ .clearOpen ∧ (k.awaiting (x.1 :: x.2) = true ∨ k.echoes (x.1 :: x.2) = true) := by
    cases k <;> decide
  exact table _ (mem_transitions h) hp

lemma ending_of_rest {k : Kind} {i : Instr} {rest : List Instr} (h : i :: rest ∈ k.positions)
    (hp : k.ending rest = true) : i = .setClosing ∨ k.ending (i :: rest) = true := by
  have table : ∀ x ∈ k.transitions, k.ending x.2 = true →
      x.1 = .setClosing ∨ k.ending (x.1 :: x.2) = true := by
    cases k <;> decide
  exact table _ (mem_transitions h) hp

lemma strayClear_rest {k : Kind} {i : Instr} {rest : List Instr} (h : i :: rest ∈ k.positions) :
    k.strayClear rest = false := by
  have table : ∀ x ∈ k.transitions, k.strayClear x.2 = false := by
    cases k <;> decide
  exact table _ (mem_transitions h)

lemma exit_facts {k : Kind} {i : Instr} {rest : List Instr} (h : i :: rest ∈ k.positions)
    {x : Exit} (hx : i.exit? = some x) : k.betweenTests x.rest = false ∧
      k.awaiting x.rest = false ∧ k.committed x.rest = false ∧ k.strayClear x.rest = false := by
  have table : ∀ y ∈ k.transitions, ∀ x ∈ y.1.exit?, k.betweenTests x.rest = false ∧
      k.awaiting x.rest = false ∧ k.committed x.rest = false ∧ k.strayClear x.rest = false := by
    cases k <;> decide
  exact table _ (mem_transitions h) x hx

/-- Between its tests and the end of the socket a function tests nothing. -/
lemma closing_cons {k : Kind} {i : Instr} {rest : List Instr} (h : i :: rest ∈ k.positions)
    (hp : k.closing (i :: rest) = true) :
    i = .closeSocket ∨ (i.mayLeave = false ∧ k.closing rest = true) := by
  have table : ∀ x ∈ k.transitions, k.closing (x.1 :: x.2) = true →
      x.1 = .closeSocket ∨ (x.1.mayLeave = false ∧ k.closing x.2 = true) := by
    cases k <;> decide
  exact table _ (mem_transitions h) hp

lemma committed_cases {k : Kind} {rest : List Instr} (h : rest ∈ k.positions)
    (hp : k.committed rest = true) :
    ((k.unmarked rest = true ∨ k.flagged rest = true) ∧ k.closing rest = true) ∨
      k.answering rest = true := by
  have table : ∀ x ∈ k.positions, k.committed x = true →
      ((k.unmarked x = true ∨ k.flagged x = true) ∧ k.closing x = true) ∨
        k.answering x = true := by
    cases k <;> decide
  exact table _ h hp

lemma answering_of_clearOpen {rest : List Instr} (h : .clearOpen :: rest ∈ echo.positions) :
    echo.answering (.clearOpen :: rest) = true := by
  have table : ∀ x ∈ echo.transitions, x.1 = .clearOpen →
      echo.answering (.clearOpen :: x.2) = true := by
    decide
  exact table _ (mem_transitions h) rfl

lemma answering_of_echoing {k : Kind} {rest : List Instr} (h : rest ∈ k.positions)
    (hp : k.echoing rest = true) : k.answering rest = true := by
  have table : ∀ x ∈ k.positions, k.echoing x = true → k.answering x = true := by
    cases k <;> decide
  exact table _ h hp

/-- The places of an echo are those of `handle_close_frame`. -/
lemma eq_echo {k : Kind} {rest : List Instr} (hp : k.awaiting rest = true ∨
    k.answering rest = true ∨ k.echoing rest = true ∨ k.echoes rest = true) : k = .echo := by
  cases k <;> simp [awaiting, answering, echoing, echoes] at hp ⊢

lemma tests_of_place {k : Kind} {rest : List Instr} (hp : k.betweenTests rest = true ∨
    k.closing rest = true ∨ k.ending rest = true) : k.tests = true := by
  cases k <;> simp [betweenTests, closing, ending, tests] at hp ⊢

lemma not_awaiting_of_echoing {k : Kind} {rest : List Instr} (h : rest ∈ k.positions)
    (hp : k.echoing rest = true) : k.awaiting rest = false := by
  have table : ∀ x ∈ k.positions, k.echoing x = true → k.awaiting x = false := by
    cases k <;> decide
  exact table _ h hp

lemma flagged_exit (k : Kind) (x : Exit) : k.flagged x.rest = false := by
  cases k <;> cases x <;> decide

end Kind

lemma write_notMem_exit (x : Exit) : x.rest.contains .write = false := by
  cases x <;> rfl

lemma locked_cons {i : Instr} {rest : List Instr} (hi : i ≠ .lock) (h : locked rest = true) :
    locked (i :: rest) = true := by
  simp only [locked, Bool.and_eq_true, Bool.not_eq_true', List.contains_cons, Bool.or_eq_true,
    Bool.or_eq_false_iff] at h ⊢
  exact ⟨.inr h.1, by simpa using hi.symm, h.2⟩

lemma Job.frame_not_close {e : Endpoint} {job : Job} (hsent : job.kind e ≠ .unsent)
    (hlost : job.kind e ≠ .lost) (hcloses : (job.kind e).closes = false) :
    isCloseFrame (job.frame e) = false := by
  have hdata : ∀ {op : Opcode} {data : List UInt8} {fin : Bool} (key : Key), op ≠ .close →
      (if (compressed e op data fin).isSome then Kind.send else Kind.unsent) ≠ .unsent →
      isCloseFrame (buildData e op data fin key []) = false := by
    intro op data fin key hop hk
    cases hc : compressed e op data fin with
    | none => simp [hc] at hk
    | some z =>
        obtain ⟨payload, rsv1⟩ := z
        simp only [buildData, hc, buildInto_eq, isCloseFrame_encodeParts]
        simpa using hop
  cases job with
  | sendText text fin key => exact hdata key (by simp) hsent
  | sendBinary data fin key => exact hdata key (by simp) hsent
  | sendContinuation data fin key => exact hdata key (by simp) hsent
  | sendPing data key =>
      simp only [frame, build, buildInto_eq, isCloseFrame_encodeParts]
      rfl
  | pong payload key =>
      simp only [frame, build, buildInto_eq, isCloseFrame_encodeParts]
      rfl
  | close code reason key => simp [kind, Kind.closes] at hcloses
  | echo code key => simp [kind, Kind.closes] at hcloses
  | fail code reason key => simp [kind, Kind.closes] at hcloses
  | lost => exact absurd rfl hlost


/-- What ends with an echo, or with a read that fails, is the reader's. -/
lemma Job.byReader_of_kind {e : Endpoint} {job : Job}
    (h : job.kind e = .echo ∨ job.kind e = .lost) : job.byReader = true := by
  cases job with
  | sendText text fin key =>
      simp only [kind] at h
      split at h <;> simp at h
  | sendBinary data fin key =>
      simp only [kind] at h
      split at h <;> simp at h
  | sendContinuation data fin key =>
      simp only [kind] at h
      split at h <;> simp at h
  | sendPing data key => simp [kind] at h
  | close code reason key => simp [kind] at h
  | _ => rfl

namespace System

variable {ι : Type} {e : Endpoint}

/-! ## The condition -/

variable (e) in
/-- The thread is at a place of the given kind. -/
def isAt (s : System ι) (P : Kind → List Instr → Bool) (t : ι) : Bool :=
  (s.thread t).any fun task => P (task.job.kind e) task.rest

lemma isAt_iff {s : System ι} {P : Kind → List Instr → Bool} {t : ι} :
    s.isAt e P t = true ↔
      ∃ task, s.thread t = some task ∧ P (task.job.kind e) task.rest = true := by
  rw [isAt, Option.any_eq_true]

lemma isAt_of_thread {s : System ι} {P : Kind → List Instr → Bool} {t : ι} {task : Task}
    (ht : s.thread t = some task) : s.isAt e P t = P (task.job.kind e) task.rest := by
  rw [isAt, ht, Option.any_some]

variable (e) in
/-- The functions that write a CLOSE frame do not overlap where their flags do not show yet.  While
the socket is open, a thread

* passes its second test only if no other is past it with `is_closing_` not yet set, and no echo is
  under way,
* receives a CLOSE frame only if no other is between its tests and `socket_.close()`,
* clears `is_open_` behind an echo only if no other is between its tests. -/
def ClosesApart (s : System ι) : Act ι → Prop
  | .run t _ => s.socketOpen = true → ∀ u, u ≠ t →
      (s.isAt e Kind.betweenTests t = true → s.holds .notClosing = true →
        s.isAt e Kind.unmarked u = false ∧ s.isAt e Kind.answering u = false) ∧
      (s.isAt e Kind.awaiting t = true → s.isAt e Kind.closing u = false) ∧
      (s.isAt e Kind.answering t = true → s.nextInstr t = some .clearOpen →
        s.isAt e Kind.betweenTests u = false)
  | _ => True

variable (e) in
/-- No sender takes the mutex between the echo of a CLOSE frame and `is_open_ = false`. -/
def SparesEcho (s : System ι) : Act ι → Prop
  | .run t _ => s.nextInstr t = some .lock → s.isAt e (fun k _ => k.closes) t = false →
      ∀ u, s.isAt e Kind.echoing u = false
  | _ => True

variable (e) in
/-- The steps of an orderly run. -/
def Orderly (s : System ι) (a : Act ι) : Prop :=
  s.BuildsAlone a ∧ s.ClosesApart e a ∧ s.SparesEcho e a

/-! ## The invariant -/

/-- What holds along an orderly run.  Most of it matters only while the socket is open. -/
structure Closing (e : Endpoint) (reader : ι) (s : System ι) : Prop where
  owner : ∀ t task, s.thread t = some task → locked task.rest = true → s.writeMutex = some t
  byReader : ∀ t task, s.thread t = some task → task.job.byReader = true → t = reader
  flagged : ∀ t, s.isAt e Kind.flagged t = true → s.holds .notClosing = false
  ending : ∀ t, s.isAt e Kind.ending t = true → ∃ flag, s.holds flag = false
  clears : s.socketOpen = true → ∀ t, s.isAt e Kind.strayClear t = false
  /-- A function that has found `is_open_` set. -/
  tested : s.socketOpen = true → ∀ t, s.isAt e Kind.betweenTests t = true →
    s.holds .isOpen = true ∨ s.holds .notClosing = false ∨ NoClose s.wire
  /-- A reader that has found `is_open_` set, before and after it has received a CLOSE frame. -/
  awaiting : s.socketOpen = true → ∀ t, s.isAt e Kind.awaiting t = true →
    s.holds .isOpen = true ∨ ∃ u, s.isAt e Kind.closing u = true
  echoes : s.socketOpen = true → ∀ t, s.isAt e Kind.echoes t = true →
    s.holds .isOpen = true ∨ s.holds .notClosing = false
  /-- A CLOSE frame on the wire shows, or will when the echo is over. -/
  traces : s.socketOpen = true → NoClose s.wire ∨ s.holds .isOpen = false ∨
    (s.holds .notClosing = false ∧ ∃ t, s.isAt e Kind.closing t = true) ∨
      ∃ t, s.isAt e Kind.echoing t = true
  /-- At most one thread is about to write a CLOSE frame, and then none is on the wire. -/
  alone : s.socketOpen = true → ∀ t, s.isAt e Kind.committed t = true →
    NoClose s.wire ∧ ∀ u, s.isAt e Kind.committed u = true → u = t
  /-- If there is a CLOSE frame on the wire, a sender that has the mutex will notice. -/
  sender : s.socketOpen = true → ∀ t task, s.thread t = some task →
    (task.job.kind e).closes = false → locked task.rest = true →
      task.rest.contains .write = true →
        NoClose s.wire ∨ ∃ flag ∈ checks task.rest, s.holds flag = false
  last : CloseIsLast s.wire

/-- Flags are never set back. -/
lemma effect_mono (s : System ι) (t : ι) (job : Job) (sent : Bool) (i : Instr) :
    (s.socketOpen = false → (s.effect e t job sent i).socketOpen = false) ∧
      ∀ flag, s.holds flag = false → (s.effect e t job sent i).holds flag = false := by
  refine ⟨fun h => ?_, fun flag h => ?_⟩
  · cases i with
    | write =>
        rw [effect]
        split <;> exact h
    | closeSocket => rfl
    | _ => exact h
  · cases flag with
    | isOpen =>
        cases i with
        | write =>
            rw [effect]
            split <;> exact h
        | clearOpen => rfl
        | _ => exact h
    | notClosing =>
        cases i with
        | write =>
            rw [effect]
            split <;> exact h
        | setClosing => rfl
        | _ => exact h

lemma effect_isOpen (s : System ι) (t : ι) (job : Job) (sent : Bool) {i : Instr}
    (hi : i ≠ .clearOpen) : (s.effect e t job sent i).isOpen = s.isOpen := by
  cases i with
  | clearOpen => exact absurd rfl hi
  | write =>
      rw [effect]
      split <;> rfl
  | _ => rfl

variable [DecidableEq ι] {reader : ι}

lemma isAt_of_update {s s' : System ι} {t u : ι} {x : Option Task} {P : Kind → List Instr → Bool}
    (hthread : s'.thread = Function.update s.thread t x) (h : s'.isAt e P u = true) :
    (u = t ∧ ∃ task ∈ x, P (task.job.kind e) task.rest = true) ∨
      (u ≠ t ∧ s.isAt e P u = true) := by
  obtain ⟨task, hu, hP⟩ := isAt_iff.mp h
  rcases eq_some_of_update hthread hu with ⟨rfl, hx⟩ | ⟨hne, hu⟩
  · exact .inl ⟨rfl, task, hx, hP⟩
  · exact .inr ⟨hne, isAt_iff.mpr ⟨task, hu, hP⟩⟩

lemma isAt_update_of_ne {s s' : System ι} {t u : ι} {x : Option Task}
    {P : Kind → List Instr → Bool} (hthread : s'.thread = Function.update s.thread t x)
    (hne : u ≠ t) (h : s.isAt e P u = true) : s'.isAt e P u = true := by
  rwa [isAt, hthread, Function.update_of_ne hne]

/-- A thread begins or returns: it is at no place that matters before or after. -/
lemma Closing.idle {s s' : System ι} {t : ι} {x : Option Task} {r : List (Job × Bool)}
    (h : Closing e reader s) (hs' : s' = { s.put t x with returned := r })
    (hold : ∀ P : Kind → List Instr → Bool, (∀ k, P k [] = false) → s.isAt e P t = false)
    (hreader : ∀ task ∈ x, task.job.byReader = true → t = reader)
    (hnew : ∀ task ∈ x, task.rest = (task.job.kind e).program) : Closing e reader s' := by
  have hthread : s'.thread = Function.update s.thread t x := by rw [hs']; rfl
  obtain ⟨hflag, hsocket, hwire, hmutex⟩ : (∀ flag, s'.holds flag = s.holds flag) ∧
      s'.socketOpen = s.socketOpen ∧ s'.wire = s.wire ∧ s'.writeMutex = s.writeMutex := by
    subst hs'
    exact ⟨fun flag => by cases flag <;> rfl, rfl, rfl, rfl⟩
  -- a thread at a place that no function begins at was there before, and another one stays there
  have hback : ∀ {P : Kind → List Instr → Bool} {u : ι}, (∀ k, P k k.program = false) →
      s'.isAt e P u = true → s.isAt e P u = true := by
    intro P u hP hu
    rcases isAt_of_update hthread hu with ⟨-, task, hx, hPt⟩ | ⟨-, hu⟩
    · rw [hnew task hx, hP] at hPt
      simp at hPt
    · exact hu
  have hforth : ∀ {P : Kind → List Instr → Bool} {u : ι}, (∀ k, P k [] = false) →
      s.isAt e P u = true → s'.isAt e P u = true := by
    intro P u hP hu
    refine isAt_update_of_ne hthread ?_ hu
    rintro rfl
    simp [hold P hP] at hu
  refine ⟨fun u task hu hl => ?_, fun u task hu hr => ?_, fun u hu => ?_, fun u hu => ?_,
    fun hopen u => ?_, fun hopen u hu => ?_, fun hopen u hu => ?_, fun hopen u hu => ?_,
    fun hopen => ?_, fun hopen u hu => ?_, fun hopen u task hu hk hl hw => ?_, by
      rw [hwire]
      exact h.last⟩
  · rw [hmutex]
    rcases eq_some_of_update hthread hu with ⟨rfl, hx⟩ | ⟨-, hu⟩
    · rw [hnew task hx, (Kind.program_facts _).1] at hl
      simp at hl
    · exact h.owner u task hu hl
  · rcases eq_some_of_update hthread hu with ⟨rfl, hx⟩ | ⟨-, hu⟩
    · exact hreader task hx hr
    · exact h.byReader u task hu hr
  · rw [hflag]
    exact h.flagged u (hback (fun k => by cases k <;> decide) hu)
  · obtain ⟨flag, hf⟩ := h.ending u (hback (fun k => by cases k <;> decide) hu)
    exact ⟨flag, by rw [hflag, hf]⟩
  · rw [← Bool.not_eq_true]
    intro hu
    have hstray := h.clears (hsocket ▸ hopen) u
    rw [hback (fun k => by cases k <;> decide) hu] at hstray
    simp at hstray
  · rw [hflag, hflag, hwire]
    exact h.tested (hsocket ▸ hopen) u (hback (fun k => by cases k <;> decide) hu)
  · rw [hflag]
    refine (h.awaiting (hsocket ▸ hopen) u (hback (fun k => by cases k <;> decide) hu)).imp_right ?_
    rintro ⟨v, hv⟩
    exact ⟨v, hforth (fun k => by cases k <;> decide) hv⟩
  · rw [hflag, hflag]
    exact h.echoes (hsocket ▸ hopen) u (hback (fun k => by cases k <;> decide) hu)
  · rw [hflag, hflag, hwire]
    rcases h.traces (hsocket ▸ hopen) with hno | hclosed | ⟨hc, v, hv⟩ | ⟨v, hv⟩
    · exact .inl hno
    · exact .inr (.inl hclosed)
    · exact .inr (.inr (.inl ⟨hc, v, hforth (fun k => by cases k <;> decide) hv⟩))
    · exact .inr (.inr (.inr ⟨v, hforth (fun k => by cases k <;> decide) hv⟩))
  · rw [hwire]
    obtain ⟨hno, honly⟩ := h.alone (hsocket ▸ hopen) u (hback (fun k => by cases k <;> decide) hu)
    exact ⟨hno, fun v hv => honly v (hback (fun k => by cases k <;> decide) hv)⟩
  · rw [hwire]
    simp only [hflag]
    rcases eq_some_of_update hthread hu with ⟨rfl, hx⟩ | ⟨-, hu⟩
    · rw [hnew task hx, (Kind.program_facts _).1] at hl
      simp at hl
    · exact h.sender (hsocket ▸ hopen) u task hu hk hl hw

section Run

/-! One instruction of thread `t`, from `s` to `s'`. -/

variable {s s' : System ι} {t : ι} {job : Job} {i : Instr} {rest : List Instr} {sent ok ok' : Bool}

omit [DecidableEq ι] in
/-- Where an instruction leads. -/
lemma next_cases (s : System ι) (i : Instr) (rest : List Instr) :
    (s.next rest i = rest ∧ ∀ flag, i.tested? = some flag → s.holds flag = true) ∨
      (∃ flag x, i.tested? = some flag ∧ i.exit? = some x ∧ s.holds flag = false ∧
        s.next rest i = x.rest) ∨
      (s.socketOpen = false ∧ s.next rest i = [.clearOpen]) := by
  cases i with
  | require flag x =>
      simp only [next, Instr.tested?, Instr.exit?, Option.some.injEq, forall_eq']
      by_cases hf : s.holds flag = true
      · exact .inl ⟨by rw [if_pos hf], hf⟩
      · exact .inr (.inl ⟨flag, x, rfl, rfl, by simpa using hf, by rw [if_neg hf]⟩)
  | receive =>
      cases hopen : s.socketOpen with
      | true => exact .inl ⟨by simp [next, hopen], by simp [Instr.tested?]⟩
      | false => exact .inr (.inr ⟨rfl, by simp [next, hopen]⟩)
  | _ => exact .inl ⟨rfl, by simp [Instr.tested?]⟩

omit [DecidableEq ι] in
/-- A thread that is at a place to which no failed test leads has gone on, and has passed the test
if there was one. -/
lemma next_of_place {P : List Instr → Bool} (hopen : s.socketOpen = true)
    (hexit : ∀ x, i.exit? = some x → P x.rest = false) (h : P (s.next rest i) = true) :
    P rest = true ∧ ∀ flag, i.tested? = some flag → s.holds flag = true := by
  rcases s.next_cases i rest with ⟨hnext, hpassed⟩ | ⟨flag, x, -, hx, -, hnext⟩ | ⟨hclosed, -⟩
  · exact ⟨hnext ▸ h, hpassed⟩
  · rw [hnext, hexit x hx] at h
    simp at h
  · simp [hopen] at hclosed

omit [DecidableEq ι] in
lemma locked_next (hpos : i :: rest ∈ (job.kind e).positions) (hi : i ≠ .lock)
    (h : locked (s.next rest i) = true) : locked (i :: rest) = true := by
  cases i with
  | require flag x =>
      simp only [next] at h
      split at h
      · exact locked_cons hi h
      · exact Kind.locked_exit hpos h
  | receive =>
      simp only [next] at h
      split at h
      · exact locked_cons hi h
      · simp [locked] at h
  | _ => exact locked_cons hi h

omit [DecidableEq ι] in
lemma flagged_next (hpos : i :: rest ∈ (job.kind e).positions) (hi : i ≠ .setClosing)
    (h : (job.kind e).flagged (s.next rest i) = true) :
    (job.kind e).flagged (i :: rest) = true := by
  cases i with
  | require flag x =>
      simp only [next] at h
      split at h
      · exact Kind.flagged_of_rest hpos hi h
      · simp [Kind.flagged_exit] at h
  | receive =>
      simp only [next] at h
      split at h
      · exact Kind.flagged_of_rest hpos hi h
      · simp [Kind.flagged, Kind.committed] at h
  | _ => exact Kind.flagged_of_rest hpos hi h

omit [DecidableEq ι] in
/-- A thread that still has to write after an instruction has passed the test, if it was one. -/
lemma next_of_write (hopen : s.socketOpen = true) (h : (s.next rest i).contains .write = true) :
    s.next rest i = rest ∧ ∀ flag, i.tested? = some flag → s.holds flag = true := by
  rcases s.next_cases i rest with hgoes | ⟨flag, x, -, -, -, hnext⟩ | ⟨hclosed, -⟩
  · exact hgoes
  · rw [hnext, write_notMem_exit] at h
    simp at h
  · simp [hopen] at hclosed

omit [DecidableEq ι] in
lemma effect_writeMutex (hl : i ≠ .lock) (hu : i ≠ .unlock) :
    (s.effect e t job sent i).writeMutex = s.writeMutex := by
  cases i with
  | lock => exact absurd rfl hl
  | unlock => exact absurd rfl hu
  | write =>
      rw [effect]
      split <;> rfl
  | _ => rfl

/-- What an instruction does, as far as it matters here. -/
structure Ran (s s' : System ι) (t : ι) (job : Job) (i : Instr) (rest : List Instr)
    (ok' : Bool) : Prop where
  thread : s'.thread = Function.update s.thread t (some ⟨job, s.next rest i, ok'⟩)
  socket : s'.socketOpen = true → s.socketOpen = true ∧ i ≠ .closeSocket
  flags : ∀ flag, s.holds flag = false → s'.holds flag = false
  stays : i ≠ .clearOpen → s.holds .isOpen = true → s'.holds .isOpen = true
  wire : s'.wire = s.wire ∨
    (i = .write ∧ s.socketOpen = true ∧ s'.wire = s.wire ++ [s.outboundFrame])
  lock : i = .lock → s'.writeMutex = some t
  mutex : i ≠ .lock → i ≠ .unlock → s'.writeMutex = s.writeMutex
  setClosing : i = .setClosing → s'.holds .notClosing = false
  clearOpen : i = .clearOpen → s'.holds .isOpen = false

lemma ran_of_run (e : Endpoint) (s : System ι) (t : ι) (job : Job) (i : Instr) (rest : List Instr)
    (sent ok' : Bool) :
    Ran s ((s.effect e t job sent i).put t (some ⟨job, s.next rest i, ok'⟩)) t job i rest ok' where
  thread := by rw [put, effect_thread]
  socket h := by
    constructor
    · by_contra hclosed
      have hstill := (effect_mono (e := e) s t job sent i).1 (Bool.not_eq_true _ ▸ hclosed)
      exact absurd (h.symm.trans hstill) (by simp)
    · rintro rfl
      simp [put, effect] at h
  flags := (effect_mono s t job sent i).2
  stays hi h := (effect_isOpen s t job sent hi).trans h
  wire := by
    by_cases hi : i = .write
    · subst hi
      by_cases hok : (s.socketOpen && sent) = true
      · refine .inr ⟨rfl, (Bool.and_eq_true_iff.mp hok).1, ?_⟩
        simp only [put, effect, if_pos hok]
      · left
        simp only [put, effect, if_neg hok]
    · exact .inl (effect_wire s t job sent hi)
  lock := by
    rintro rfl
    rfl
  mutex := effect_writeMutex
  setClosing := by
    rintro rfl
    rfl
  clearOpen := by
    rintro rfl
    rfl

variable (h : Closing e reader s) (hintact : Intact e s)
  (ht : s.thread t = some ⟨job, i :: rest, ok⟩) (r : Ran s s' t job i rest ok')

include h hintact ht r

/-- The mutex has one owner. -/
lemma Closing.owner_run (hblocked : s.blocked i = false) (u : ι) (task : Task)
    (hu : s'.thread u = some task) (hl : locked task.rest = true) : s'.writeMutex = some u := by
  have hpos := hintact.positions t _ ht
  rcases eq_some_of_update r.thread hu with ⟨rfl, hx⟩ | ⟨hne, hu⟩
  · obtain rfl := Option.some.inj hx
    by_cases hlock : i = .lock
    · exact r.lock hlock
    · have hold := locked_next hpos hlock hl
      by_cases hunlock : i = .unlock
      · subst hunlock
        simp [next, (Kind.locked_unlock hpos).2] at hl
      · rw [r.mutex hlock hunlock]
        exact h.owner u _ ht hold
  · have howner := h.owner u task hu hl
    have hlock : i ≠ .lock := by
      rintro rfl
      simp [blocked, howner] at hblocked
    have hunlock : i ≠ .unlock := by
      rintro rfl
      have hmine := h.owner t _ ht (Kind.locked_unlock hpos).1
      rw [howner] at hmine
      exact hne (Option.some.inj hmine)
    rw [r.mutex hlock hunlock, howner]

omit hintact in
lemma Closing.byReader_run (u : ι) (task : Task) (hu : s'.thread u = some task)
    (hr : task.job.byReader = true) : u = reader := by
  rcases eq_some_of_update r.thread hu with ⟨rfl, hx⟩ | ⟨-, hu⟩
  · obtain rfl := Option.some.inj hx
    exact h.byReader u _ ht hr
  · exact h.byReader u task hu hr

omit hintact ht r [DecidableEq ι] in
/-- Who is at a place of the echo, or of a read that fails, is the reader. -/
lemma Closing.eq_reader {u : ι} {task : Task} (hu : s.thread u = some task)
    (hk : task.job.kind e = .echo ∨ task.job.kind e = .lost) : u = reader :=
  h.byReader u task hu (Job.byReader_of_kind hk)

omit h hintact r [DecidableEq ι] in
lemma isAt_before {P : Kind → List Instr → Bool} (hP : P (job.kind e) (i :: rest) = true) :
    s.isAt e P t = true := isAt_iff.mpr ⟨_, ht, hP⟩

omit h hintact ht in
lemma isAt_after {P : Kind → List Instr → Bool} (hP : P (job.kind e) (s.next rest i) = true) :
    s'.isAt e P t = true :=
  isAt_iff.mpr ⟨⟨job, s.next rest i, ok'⟩, by rw [r.thread, Function.update_self], hP⟩

omit r [DecidableEq ι] in
/-- A sender that writes has no CLOSE frame before it and does not write one. -/
lemma Closing.sender_write (hi : i = .write) (hopen : s.socketOpen = true)
    (hk : (job.kind e).closes = false) :
    NoClose s.wire ∧ isCloseFrame s.outboundFrame = false := by
  subst hi
  have hpos := hintact.positions t _ ht
  obtain ⟨hlocked, hchecks, -, -⟩ := Kind.write_facts hpos
  constructor
  · rcases h.sender hopen t _ ht hk hlocked (by simp) with hno | ⟨flag, hflag, -⟩
    · exact hno
    · simp [hchecks] at hflag
  · have hkind : job.kind e ≠ .unsent ∧ job.kind e ≠ .lost := Kind.ne_of_write hpos
    rw [hintact.buffer t _ ht (Kind.built_write hpos).1]
    exact Job.frame_not_close hkind.1 hkind.2 hk

omit r [DecidableEq ι] in
lemma Closing.closer_write (hi : i = .write) (hopen : s.socketOpen = true)
    (hk : (job.kind e).closes = true) : NoClose s.wire := by
  subst hi
  obtain ⟨-, -, -, hcommitted⟩ := Kind.write_facts (hintact.positions t _ ht)
  exact (h.alone hopen t (isAt_before ht (hcommitted.trans hk))).1

omit h in
lemma closing_stays (hopen' : s'.socketOpen = true) {u : ι}
    (hu : s.isAt e Kind.closing u = true) : s'.isAt e Kind.closing u = true := by
  rcases eq_or_ne u t with rfl | hne
  · rw [isAt_of_thread ht] at hu
    rcases Kind.closing_cons (hintact.positions u _ ht) hu with hi | ⟨hi, hrest⟩
    · exact absurd hi (r.socket hopen').2
    · exact isAt_after r (by rwa [(s.goes_on rest true true hi).1])
  · exact isAt_update_of_ne r.thread hne hu

omit r [DecidableEq ι] in
/-- Who clears `is_open_`: the echo, a read that fails, or a function that has found a flag down. -/
lemma Closing.clearer (hopen : s.socketOpen = true) (hi : i = .clearOpen) :
    job.kind e = .echo ∨ job.kind e = .lost ∨
      ((job.kind e).ending (i :: rest) = true ∧ (job.kind e).closing rest = true ∧
        (s.holds .isOpen = true → s.holds .notClosing = false)) := by
  subst hi
  have hstray := h.clears hopen t
  rw [isAt_of_thread ht] at hstray
  by_cases hending : (job.kind e).ending (.clearOpen :: rest) = true
  · refine .inr (.inr ⟨hending, ?_, fun hset => ?_⟩)
    · rcases Kind.closing_cons (hintact.positions t _ ht)
        (Bool.and_eq_true_iff.mp hending).1 with hi | ⟨-, hrest⟩
      · simp at hi
      · exact hrest
    · obtain ⟨flag, hflag⟩ := h.ending t (isAt_before ht hending)
      cases flag with
      | isOpen => simp [hset] at hflag
      | notClosing => exact hflag
  · simp only [Kind.strayClear, List.head?_cons, beq_self_eq_true, Bool.true_and, hending,
      Bool.not_false, Bool.and_true, Bool.and_eq_false_iff, Bool.not_eq_false',
      beq_iff_eq] at hstray
    exact hstray.elim .inl fun hlost => .inr (.inl hlost)

lemma Closing.flagged_run (u : ι) (hu : s'.isAt e Kind.flagged u = true) :
    s'.holds .notClosing = false := by
  rcases isAt_of_update r.thread hu with ⟨rfl, task, hx, hP⟩ | ⟨-, hu⟩
  · obtain rfl := Option.some.inj hx
    by_cases hi : i = .setClosing
    · exact r.setClosing hi
    · have hold := flagged_next (hintact.positions u _ ht) hi hP
      exact r.flags _ (h.flagged u (isAt_before ht hold))
  · exact r.flags _ (h.flagged u hu)

/-- On the way to `socket_.close()` a flag is down: the one that was set, or the one that made a
test fail. -/
lemma Closing.ending_run (u : ι) (hu : s'.isAt e Kind.ending u = true) :
    ∃ flag, s'.holds flag = false := by
  rcases isAt_of_update r.thread hu with ⟨rfl, task, hx, hP⟩ | ⟨-, hu⟩
  · obtain rfl := Option.some.inj hx
    have hpos := hintact.positions u _ ht
    rcases s.next_cases i rest with ⟨hnext, -⟩ | ⟨flag, x, -, -, hflag, -⟩ | ⟨-, hnext⟩
    · rw [hnext] at hP
      rcases Kind.ending_of_rest hpos hP with rfl | hold
      · exact ⟨.notClosing, r.setClosing rfl⟩
      · obtain ⟨flag, hflag⟩ := h.ending u (isAt_before ht hold)
        exact ⟨flag, r.flags flag hflag⟩
    · exact ⟨flag, r.flags flag hflag⟩
    · rw [hnext] at hP
      simp [Kind.ending, Kind.closing] at hP
  · obtain ⟨flag, hflag⟩ := h.ending u hu
    exact ⟨flag, r.flags flag hflag⟩

lemma Closing.clears_run (hopen' : s'.socketOpen = true) (u : ι) :
    s'.isAt e Kind.strayClear u = false := by
  obtain ⟨hopen, -⟩ := r.socket hopen'
  rw [← Bool.not_eq_true]
  intro hu
  rcases isAt_of_update r.thread hu with ⟨rfl, task, hx, hP⟩ | ⟨-, hu⟩
  · obtain rfl := Option.some.inj hx
    have hpos := hintact.positions u _ ht
    obtain ⟨hrest, -⟩ := next_of_place hopen (fun x hx => (Kind.exit_facts hpos hx).2.2.2) hP
    rw [Kind.strayClear_rest hpos] at hrest
    simp at hrest
  · rw [h.clears hopen u] at hu
    simp at hu

/-- What the first test has found: as long as nothing shows, there is no CLOSE frame. -/
lemma Closing.tested_run (hapart : s.ClosesApart e (.run t sent)) (hopen' : s'.socketOpen = true)
    (u : ι) (hu : s'.isAt e Kind.betweenTests u = true) :
    s'.holds .isOpen = true ∨ s'.holds .notClosing = false ∨ NoClose s'.wire := by
  obtain ⟨hopen, -⟩ := r.socket hopen'
  have hpos := hintact.positions t _ ht
  rcases isAt_of_update r.thread hu with ⟨rfl, task, hx, hP⟩ | ⟨hne, hu⟩
  · -- the first test has just been passed
    obtain rfl := Option.some.inj hx
    obtain ⟨hrest, hpassed⟩ := next_of_place hopen (fun x hx => (Kind.exit_facts hpos hx).1) hP
    have htested := Kind.betweenTests_of_rest hpos hrest
    refine .inl (r.stays ?_ (hpassed _ htested))
    rintro rfl
    simp [Instr.tested?] at htested
  rcases h.tested hopen u hu with hset | hclosing | hno
  · by_cases hi : i = .clearOpen
    · -- somebody clears `is_open_`, whose CLOSE frame, if there is one, shows in the other flag
      rcases h.clearer hintact ht hopen hi with hk | hk | ⟨-, -, hdown⟩
      · subst hi
        have hanswering : s.isAt e Kind.answering t = true := isAt_before ht (by
          rw [hk] at hpos ⊢
          exact Kind.answering_of_clearOpen hpos)
        rw [(hapart hopen u hne).2.2 hanswering (nextInstr_eq ht)] at hu
        simp at hu
      · rcases h.traces hopen with hno | hcleared | ⟨hclosing, -⟩ | ⟨v, hv⟩
        · refine .inr (.inr ?_)
          rcases r.wire with hwire | ⟨rfl, -, -⟩
          · rwa [hwire]
          · simp at hi
        · simp [hset] at hcleared
        · exact .inr (.inl (r.flags _ hclosing))
        · -- the echo is the reader's, and so is the read that has failed
          obtain ⟨task, hv, hP⟩ := isAt_iff.mp hv
          have hecho := Kind.eq_echo (.inr (.inr (.inl hP)))
          have hsame : v = t := (h.eq_reader hv (.inl hecho)).trans (h.eq_reader ht (.inr hk)).symm
          subst hsame
          rw [ht, Option.some.injEq] at hv
          subst hv
          simp [hk] at hecho
      · exact .inr (.inl (r.flags _ (hdown hset)))
    · exact .inl (r.stays hi hset)
  · exact .inr (.inl (r.flags _ hclosing))
  · rcases r.wire with hwire | ⟨hi, -, hwire⟩
    · exact .inr (.inr (by rwa [hwire]))
    · cases hk : (job.kind e).closes with
      | false =>
          rw [hwire]
          exact .inr (.inr (hno.append (h.sender_write hintact ht hi hopen hk).2))
      | true =>
          subst hi
          rcases Kind.close_write_facts hpos hk with ⟨hflagged, -⟩ | ⟨hechoes, -⟩
          · exact .inr (.inl (r.flags _ (h.flagged t (isAt_before ht hflagged))))
          · rcases h.echoes hopen t (isAt_before ht hechoes) with hset | hclosing
            · exact .inl (r.stays (by simp) hset)
            · exact .inr (.inl (r.flags _ hclosing))

/-- What the reader has found before it waits. -/
lemma Closing.awaiting_run (hopen' : s'.socketOpen = true) (u : ι)
    (hu : s'.isAt e Kind.awaiting u = true) :
    s'.holds .isOpen = true ∨ ∃ v, s'.isAt e Kind.closing v = true := by
  obtain ⟨hopen, -⟩ := r.socket hopen'
  have hpos := hintact.positions t _ ht
  rcases isAt_of_update r.thread hu with ⟨rfl, task, hx, hP⟩ | ⟨hne, hu⟩
  · obtain rfl := Option.some.inj hx
    obtain ⟨hrest, hpassed⟩ := next_of_place hopen (fun x hx => (Kind.exit_facts hpos hx).2.1) hP
    have htested := Kind.awaiting_of_rest hpos hrest
    refine .inl (r.stays ?_ (hpassed _ htested))
    rintro rfl
    simp [Instr.tested?] at htested
  rcases h.awaiting hopen u hu with hset | ⟨v, hv⟩
  · by_cases hi : i = .clearOpen
    · right
      -- the reader itself waits, so it is one that will close the socket
      obtain ⟨task, hut, hP⟩ := isAt_iff.mp hu
      have hreader : u = reader := h.eq_reader hut (.inl (Kind.eq_echo (.inl hP)))
      rcases h.clearer hintact ht hopen hi with hk | hk | ⟨-, hclosing, -⟩
      · exact absurd (hreader.trans (h.eq_reader ht (.inl hk)).symm) hne
      · exact absurd (hreader.trans (h.eq_reader ht (.inr hk)).symm) hne
      · subst hi
        exact ⟨t, isAt_after r hclosing⟩
    · exact .inl (r.stays hi hset)
  · exact .inr ⟨v, closing_stays hintact ht r hopen' hv⟩

/-- What the reader has found still shows when it has received a CLOSE frame. -/
lemma Closing.echoes_run (hapart : s.ClosesApart e (.run t sent)) (hopen' : s'.socketOpen = true)
    (u : ι) (hu : s'.isAt e Kind.echoes u = true) :
    s'.holds .isOpen = true ∨ s'.holds .notClosing = false := by
  obtain ⟨hopen, -⟩ := r.socket hopen'
  have hpos := hintact.positions t _ ht
  rcases isAt_of_update r.thread hu with ⟨rfl, task, hx, hP⟩ | ⟨hne, hu⟩
  · obtain rfl := Option.some.inj hx
    obtain ⟨hrest, -⟩ := next_of_place hopen
      (fun x hx => by simp [Kind.echoes, (Kind.exit_facts hpos hx).2.2.1]) hP
    obtain ⟨hi, hbefore⟩ := Kind.echoes_of_rest hpos hrest
    rcases hbefore with hawaiting | hechoes
    · have hat := isAt_before ht hawaiting
      rcases h.awaiting hopen u hat with hset | ⟨v, hv⟩
      · exact .inl (r.stays hi hset)
      · -- another function is about to close the socket
        rcases eq_or_ne v u with rfl | hne
        · rw [isAt_of_thread ht] at hv
          have htests := Kind.tests_of_place (.inr (.inl hv))
          rw [Kind.eq_echo (.inl hawaiting)] at htests
          simp [Kind.tests] at htests
        · rw [(hapart hopen v hne).2.1 hat] at hv
          simp at hv
    · rcases h.echoes hopen u (isAt_before ht hechoes) with hset | hclosing
      · exact .inl (r.stays hi hset)
      · exact .inr (r.flags _ hclosing)
  · rcases h.echoes hopen u hu with hset | hclosing
    · by_cases hi : i = .clearOpen
      · obtain ⟨task, hut, hP⟩ := isAt_iff.mp hu
        have hreader : u = reader := h.eq_reader hut (.inl (Kind.eq_echo (.inr (.inr (.inr hP)))))
        rcases h.clearer hintact ht hopen hi with hk | hk | ⟨-, -, hdown⟩
        · exact absurd (hreader.trans (h.eq_reader ht (.inl hk)).symm) hne
        · exact absurd (hreader.trans (h.eq_reader ht (.inr hk)).symm) hne
        · exact .inr (r.flags _ (hdown hset))
      · exact .inl (r.stays hi hset)
    · exact .inr (r.flags _ hclosing)

/-- A CLOSE frame on the wire shows, or will when the echo is over. -/
lemma Closing.traces_run (hopen' : s'.socketOpen = true) :
    NoClose s'.wire ∨ s'.holds .isOpen = false ∨
      (s'.holds .notClosing = false ∧ ∃ u, s'.isAt e Kind.closing u = true) ∨
        ∃ u, s'.isAt e Kind.echoing u = true := by
  obtain ⟨hopen, -⟩ := r.socket hopen'
  have hpos := hintact.positions t _ ht
  rcases r.wire with hwire | ⟨hi, -, hwire⟩
  · rw [hwire]
    rcases h.traces hopen with hno | hcleared | ⟨hclosing, u, hu⟩ | ⟨u, hu⟩
    · exact .inl hno
    · exact .inr (.inl (r.flags _ hcleared))
    · exact .inr (.inr (.inl ⟨r.flags _ hclosing, u, closing_stays hintact ht r hopen' hu⟩))
    · right
      rcases eq_or_ne u t with rfl | hne
      · rw [isAt_of_thread ht] at hu
        rcases Kind.echoing_rest hpos hu with hi | ⟨rfl, hrest⟩
        · exact .inl (r.clearOpen hi)
        · exact .inr (.inr ⟨u, isAt_after r hrest⟩)
      · exact .inr (.inr ⟨u, isAt_update_of_ne r.thread hne hu⟩)
  · cases hk : (job.kind e).closes with
    | false =>
        obtain ⟨hno, hframe⟩ := h.sender_write hintact ht hi hopen hk
        rw [hwire]
        exact .inl (hno.append hframe)
    | true =>
        subst hi
        right
        right
        rcases Kind.close_write_facts hpos hk with ⟨hflagged, hclosing⟩ | ⟨-, hechoing⟩
        · exact .inl ⟨r.flags _ (h.flagged t (isAt_before ht hflagged)), t, isAt_after r hclosing⟩
        · exact .inr ⟨t, isAt_after r hechoing⟩

omit r [DecidableEq ι] in
/-- A thread that passes its second test: nobody has set `is_closing_`, and whoever will is past
that test, or has written a CLOSE frame and not yet cleared `is_open_`. -/
lemma Closing.tests_alone (hapart : s.ClosesApart e (.run t sent)) (hopen : s.socketOpen = true)
    (hbetween : (job.kind e).betweenTests (i :: rest) = true)
    (hunset : s.holds .notClosing = true) :
    NoClose s.wire ∧ ∀ v, v ≠ t → s.isAt e Kind.committed v = false := by
  have hat := isAt_before ht hbetween
  constructor
  · -- what traces there are of a CLOSE frame: none, or one that `is_open_` or `is_closing_` shows,
    -- or one that is just being echoed
    rcases h.traces hopen with hno | hcleared | ⟨hclosing, -⟩ | ⟨v, hv⟩
    · exact hno
    · rcases h.tested hopen t hat with hset | hclosing | hno
      · simp [hset] at hcleared
      · simp [hunset] at hclosing
      · exact hno
    · simp [hunset] at hclosing
    · obtain ⟨task, hvt, hP⟩ := isAt_iff.mp hv
      -- an echo under way is what the condition rules out
      have hanswering := Kind.answering_of_echoing (hintact.positions v _ hvt) hP
      have hne : v ≠ t := by
        rintro rfl
        rw [ht, Option.some.injEq] at hvt
        subst hvt
        have htests := Kind.tests_of_place (.inl hbetween)
        rw [Kind.eq_echo (.inr (.inl hanswering))] at htests
        simp [Kind.tests] at htests
      have hnone := ((hapart hopen v hne).1 hat hunset).2
      rw [isAt_of_thread hvt, hanswering] at hnone
      simp at hnone
  · intro v hne
    rw [← Bool.not_eq_true]
    intro hv
    obtain ⟨task, hvt, hP⟩ := isAt_iff.mp hv
    obtain ⟨hunmarked, hanswering⟩ := (hapart hopen v hne).1 hat hunset
    rw [isAt_of_thread hvt] at hunmarked hanswering
    -- whoever is committed has its flag still to set, or has set it, or is echoing
    rcases Kind.committed_cases (hintact.positions v _ hvt) hP with ⟨hu | hf, -⟩ | ha
    · simp [hu] at hunmarked
    · have hset := h.flagged v (by rwa [isAt_of_thread hvt])
      simp [hunset] at hset
    · simp [ha] at hanswering

omit r [DecidableEq ι] in
/-- A reader that receives a CLOSE frame: it has found `is_open_` set, and nobody is on the way to
close the socket. -/
lemma Closing.receives_alone (hapart : s.ClosesApart e (.run t sent))
    (hopen : s.socketOpen = true) (hawaiting : (job.kind e).awaiting (i :: rest) = true) :
    NoClose s.wire ∧ ∀ v, v ≠ t → s.isAt e Kind.committed v = false := by
  have hat := isAt_before ht hawaiting
  have hecho := Kind.eq_echo (.inl hawaiting)
  -- nobody is between its tests and `socket_.close()`
  have hnone : ∀ v, s.isAt e Kind.closing v = false := by
    intro v
    by_cases hne : v = t
    · subst hne
      rw [isAt_of_thread ht]
      simp [Kind.closing, Kind.tests, hecho]
    · exact (hapart hopen v hne).2.1 hat
  -- the echo is the reader's, and there is one reader
  have hreader : ∀ {v : ι} {task : Task}, s.thread v = some task → task.job.kind e = .echo →
      v = t := fun hv hk => (h.eq_reader hv (.inl hk)).trans (h.eq_reader ht (.inl hecho)).symm
  constructor
  · rcases h.traces hopen with hno | hcleared | ⟨-, v, hv⟩ | ⟨v, hv⟩
    · exact hno
    · rcases h.awaiting hopen t hat with hset | ⟨v, hv⟩
      · simp [hset] at hcleared
      · simp [hnone v] at hv
    · simp [hnone v] at hv
    · obtain ⟨task, hvt, hP⟩ := isAt_iff.mp hv
      obtain rfl := hreader hvt (Kind.eq_echo (.inr (.inr (.inl hP))))
      rw [ht, Option.some.injEq] at hvt
      subst hvt
      have hnot := Kind.not_awaiting_of_echoing (hintact.positions v _ ht) hP
      simp [hawaiting] at hnot
  · intro v hne
    rw [← Bool.not_eq_true]
    intro hv
    obtain ⟨task, hvt, hP⟩ := isAt_iff.mp hv
    rcases Kind.committed_cases (hintact.positions v _ hvt) hP with ⟨-, hc⟩ | ha
    · have hnot := hnone v
      rw [isAt_of_thread hvt, hc] at hnot
      simp at hnot
    · exact hne (hreader hvt (Kind.eq_echo (.inr (.inl ha))))

/-- A thread that gets past its tests, or receives a CLOSE frame, is the only one that is about to
write a CLOSE frame, and none is on the wire. -/
lemma Closing.commits_alone (hapart : s.ClosesApart e (.run t sent))
    (hopen' : s'.socketOpen = true) (hnow : s'.isAt e Kind.committed t = true)
    (hbefore : s.isAt e Kind.committed t = false) :
    NoClose s.wire ∧ ∀ v, v ≠ t → s.isAt e Kind.committed v = false := by
  obtain ⟨hopen, -⟩ := r.socket hopen'
  have hpos := hintact.positions t _ ht
  rw [isAt_of_thread ht] at hbefore
  rw [isAt_of_thread (by rw [r.thread, Function.update_self])] at hnow
  obtain ⟨hrest, hpassed⟩ := next_of_place hopen (fun x hx => (Kind.exit_facts hpos hx).2.2.1) hnow
  rcases Kind.committed_of_rest hpos hrest with hold | ⟨htested, hbetween⟩ | hawaiting
  · simp [hbefore] at hold
  · exact h.tests_alone hintact ht hapart hopen hbetween (hpassed _ htested)
  · exact h.receives_alone hintact ht hapart hopen hawaiting

/-- At most one thread is about to write a CLOSE frame, and then none is on the wire: whoever gets
past its tests has found `is_closing_` not set, and whoever receives a CLOSE frame has found
`is_open_` set. -/
lemma Closing.alone_run (hapart : s.ClosesApart e (.run t sent)) (hopen' : s'.socketOpen = true)
    (u : ι) (hu : s'.isAt e Kind.committed u = true) :
    NoClose s'.wire ∧ ∀ v, s'.isAt e Kind.committed v = true → v = u := by
  obtain ⟨hopen, -⟩ := r.socket hopen'
  have hpos := hintact.positions t _ ht
  rcases r.wire with hwire | ⟨hi, -, hwire⟩
  · rw [hwire]
    have hstayed : ∀ v, v ≠ t → s'.isAt e Kind.committed v = true →
        s.isAt e Kind.committed v = true := by
      intro v hne hv
      exact ((isAt_of_update r.thread hv).resolve_left fun h => hne h.1).2
    by_cases hnew : s'.isAt e Kind.committed t = true ∧ s.isAt e Kind.committed t = false
    · have halone := h.commits_alone hintact ht r hapart hopen' hnew.1 hnew.2
      have honly : ∀ v, s'.isAt e Kind.committed v = true → v = t := by
        intro v hv
        by_contra hne
        have hold := hstayed v hne hv
        rw [halone.2 v hne] at hold
        simp at hold
      exact ⟨halone.1, fun v hv => (honly v hv).trans (honly u hu).symm⟩
    · have hbefore : ∀ v, s'.isAt e Kind.committed v = true →
          s.isAt e Kind.committed v = true := by
        intro v hv
        by_cases hvt : v = t
        · subst hvt
          by_contra hnot
          exact hnew ⟨hv, by simpa using hnot⟩
        · exact hstayed v hvt hv
      obtain ⟨hno, honly⟩ := h.alone hopen u (hbefore u hu)
      exact ⟨hno, fun v hv => honly v (hbefore v hv)⟩
  · subst hi
    obtain ⟨-, -, hwritten, hcommitted⟩ := Kind.write_facts hpos
    -- the writer is not about to write any more
    have hbefore : ∀ v, s'.isAt e Kind.committed v = true →
        v ≠ t ∧ s.isAt e Kind.committed v = true := by
      intro v hv
      rcases isAt_of_update r.thread hv with ⟨rfl, task, hx, hP⟩ | hv
      · obtain rfl := Option.some.inj hx
        simp only [next, Kind.committed, hwritten, Bool.and_false, Bool.false_and] at hP
        simp at hP
      · exact hv
    obtain ⟨hne, hold⟩ := hbefore u hu
    obtain ⟨hno, honly⟩ := h.alone hopen u hold
    have hk : (job.kind e).closes = false := by
      by_contra hk
      rw [Bool.not_eq_false] at hk
      exact hne (honly t (isAt_before ht (hcommitted.trans hk))).symm
    rw [hwire]
    exact ⟨hno.append (h.sender_write hintact ht rfl hopen hk).2,
      fun v hv => honly v (hbefore v hv).2⟩

/-- If there is a CLOSE frame on the wire, a sender that has the mutex will notice. -/
lemma Closing.sender_run (hspare : s.SparesEcho e (.run t sent)) (hopen' : s'.socketOpen = true)
    (u : ι) (task : Task) (hu : s'.thread u = some task) (hk : (task.job.kind e).closes = false)
    (hl : locked task.rest = true) (hwrite : task.rest.contains .write = true) :
    NoClose s'.wire ∨ ∃ flag ∈ checks task.rest, s'.holds flag = false := by
  obtain ⟨hopen, -⟩ := r.socket hopen'
  have hpos := hintact.positions t _ ht
  rcases eq_some_of_update r.thread hu with ⟨rfl, hx⟩ | ⟨hne, hu⟩
  · obtain rfl := Option.some.inj hx
    obtain ⟨hnext, hpassed⟩ := next_of_write hopen hwrite
    rw [hnext] at hl hwrite ⊢
    have hwire : s'.wire = s.wire := by
      rcases r.wire with hwire | ⟨rfl, -, -⟩
      · exact hwire
      · rw [(Kind.write_facts hpos).2.2.1] at hwrite
        simp at hwrite
    rw [hwire]
    by_cases hlock : i = .lock
    · -- the tests are all to come, and no echo is under way
      subst hlock
      have hnone := hspare (nextInstr_eq ht) (by simp [isAt, ht, hk])
      have hdown : ∀ flag, s.holds flag = false → ∃ flag ∈ checks rest, s'.holds flag = false :=
        fun flag hflag => ⟨flag, Kind.checks_lock hpos hk flag, r.flags flag hflag⟩
      rcases h.traces hopen with hno | hcleared | ⟨hclosing, -⟩ | ⟨v, hv⟩
      · exact .inl hno
      · exact .inr (hdown _ hcleared)
      · exact .inr (hdown _ hclosing)
      · simp [hnone v] at hv
    · have hold : locked (i :: rest) = true := locked_cons hlock hl
      rcases h.sender hopen u _ ht hk hold (by simp_all) with hno | ⟨flag, hmem, hflag⟩
      · exact .inl hno
      · refine .inr ⟨flag, ?_, r.flags flag hflag⟩
        -- a test that was passed is not the one that fails
        cases i with
        | require f x =>
            have hne : flag ≠ f := by
              rintro rfl
              simp [hpassed flag rfl] at hflag
            simpa [checks, hne] using hmem
        | _ => exact hmem
  · have hwire : s'.wire = s.wire := by
      rcases r.wire with hwire | ⟨rfl, -, -⟩
      · exact hwire
      · -- two threads would have the mutex
        have hmine := h.owner t _ ht (Kind.write_facts hpos).1
        rw [h.owner u task hu hl] at hmine
        exact absurd (Option.some.inj hmine) hne
    rw [hwire]
    rcases h.sender hopen u task hu hk hl hwrite with hno | ⟨flag, hmem, hflag⟩
    · exact .inl hno
    · exact .inr ⟨flag, hmem, r.flags flag hflag⟩

lemma Closing.last_run : CloseIsLast s'.wire := by
  rcases r.wire with hwire | ⟨hi, hopen, hwire⟩
  · rw [hwire]
    exact h.last
  · have hno : NoClose s.wire := by
      cases hk : (job.kind e).closes with
      | false => exact (h.sender_write hintact ht hi hopen hk).1
      | true => exact h.closer_write hintact ht hi hopen hk
    rw [hwire]
    exact closeIsLast_append hno (by simp)

end Run

/-- **One step** of an orderly run. -/
lemma Closing.step {s s' : System ι} {a : Act ι} (h : Closing e reader s) (hintact : Intact e s)
    (horderly : s.Orderly e a) (hstep : s.step e reader a = some s') : Closing e reader s' := by
  obtain ⟨-, hapart, hspare⟩ := horderly
  rcases step_cases hstep with ⟨t, job, rfl, ht, hreader, rfl⟩ |
    ⟨t, sent, job, i, rest, ok, rfl, ht, hblocked, rfl⟩ | ⟨t, job, ok, rfl, ht, rfl⟩
  · refine h.idle (x := some ⟨job, (job.kind e).program, (job.kind e).builds⟩) (r := s.returned) rfl
      (fun P _ => by rw [isAt, ht]; rfl) ?_ ?_
    · rintro task hx
      obtain rfl := Option.some.inj hx
      exact hreader
    · rintro task hx
      obtain rfl := Option.some.inj hx
      rfl
  · have r := ran_of_run e s t job i rest sent (s.result sent ok i)
    exact ⟨h.owner_run hintact ht r hblocked, h.byReader_run ht r, h.flagged_run hintact ht r,
      h.ending_run hintact ht r, h.clears_run hintact ht r, h.tested_run hintact ht r hapart,
      h.awaiting_run hintact ht r, h.echoes_run hintact ht r hapart, h.traces_run hintact ht r,
      h.alone_run hintact ht r hapart, h.sender_run hintact ht r hspare, h.last_run hintact ht r⟩
  · refine h.idle (x := none) (r := s.returned ++ [(job, ok)]) rfl (fun P hP => ?_) (by simp)
      (by simp)
    rw [isAt_of_thread ht, hP]

omit [DecidableEq ι] in
lemma closing_opened : Closing e reader (opened : System ι) where
  owner := by simp [opened]
  byReader := by simp [opened]
  flagged := by simp [opened, isAt]
  ending := by simp [opened, isAt]
  clears := by simp [opened, isAt]
  tested := by simp [opened, isAt]
  awaiting := by simp [opened, isAt]
  echoes := by simp [opened, isAt]
  traces := fun _ => .inl noClose_nil
  alone := by simp [opened, isAt]
  sender := by simp [opened]
  last := closeIsLast_append noClose_nil (Nat.zero_le 1)

/-- **The closing handshake on the wire.**  In every orderly run, whatever the threads do and
whichever writes fail, at most one CLOSE frame is written and no frame of any kind after it. -/
theorem close_is_last (e : Endpoint) (reader : ι) (s : System ι)
    (hrun : Runs (step e reader) (Orderly e) opened s) :
    (s.wire.filter isCloseFrame).length ≤ 1 ∧ CloseIsLast s.wire := by
  have hboth : Intact e s ∧ Closing e reader s := by
    refine hrun.invariant (I := fun s => Intact e s ∧ Closing e reader s)
      ⟨intact_opened, closing_opened⟩ ?_
    rintro s a t ⟨hintact, hclosing⟩ horderly hstep
    exact ⟨hintact.step horderly.1 hstep, hclosing.step hintact horderly hstep⟩
  exact ⟨hboth.2.last.at_most_one, hboth.2.last⟩

instance [Fintype ι] (s : System ι) (a : Act ι) : Decidable (s.ClosesApart e a) :=
  match a with
  | .start _ _ => inferInstanceAs (Decidable True)
  | .run t _ => inferInstanceAs (Decidable (s.socketOpen = true → ∀ u, u ≠ t →
      (s.isAt e Kind.betweenTests t = true → s.holds .notClosing = true →
        s.isAt e Kind.unmarked u = false ∧ s.isAt e Kind.answering u = false) ∧
      (s.isAt e Kind.awaiting t = true → s.isAt e Kind.closing u = false) ∧
      (s.isAt e Kind.answering t = true → s.nextInstr t = some .clearOpen →
        s.isAt e Kind.betweenTests u = false)))
  | .finish _ => inferInstanceAs (Decidable True)

instance [Fintype ι] (s : System ι) (a : Act ι) : Decidable (s.SparesEcho e a) :=
  match a with
  | .start _ _ => inferInstanceAs (Decidable True)
  | .run t _ => inferInstanceAs (Decidable (s.nextInstr t = some .lock →
      s.isAt e (fun k _ => k.closes) t = false → ∀ u, s.isAt e Kind.echoing u = false))
  | .finish _ => inferInstanceAs (Decidable True)

instance [Fintype ι] (s : System ι) (a : Act ι) : Decidable (s.Orderly e a) :=
  inferInstanceAs (Decidable (_ ∧ _ ∧ _))

end System

/-- A thread sends `A` and closes.  Two others have passed their first test before: the one that
sends `B` and the one that closes find `is_closing_` set. -/
theorem close_is_last_after_send :
    ∃ s : System (Fin 3),
      play (System.step plainEndpoint 2) .opened
        (.start 0 (.sendText [0x41] true Key.zero) :: runs 0 7 ++ [.finish 0] ++
          .start 1 (.sendText [0x42] true Key.zero) :: runs 1 1 ++
          .start 2 (.close 1001 [] Key.zero) :: runs 2 1 ++
          .start 0 (.close 1000 [] Key.zero) :: runs 0 7 ++ runs 1 5 ++ runs 2 1) = some s ∧
      s.wire = [[0x81, 0x01, 0x41], [0x88, 0x02, 0x03, 0xe8]] ∧
      (s.wire.filter isCloseFrame).length ≤ 1 ∧ CloseIsLast s.wire := by
  have hplay : (play (System.step plainEndpoint (2 : Fin 3)) .opened
      (.start 0 (.sendText [0x41] true Key.zero) :: runs 0 7 ++ [.finish 0] ++
        .start 1 (.sendText [0x42] true Key.zero) :: runs 1 1 ++
        .start 2 (.close 1001 [] Key.zero) :: runs 2 1 ++
        .start 0 (.close 1000 [] Key.zero) :: runs 0 7 ++ runs 1 5 ++ runs 2 1)).map
        (fun s => s.wire) = some [[0x81, 0x01, 0x41], [0x88, 0x02, 0x03, 0xe8]] := by
    decide +kernel
  obtain ⟨s, hs, hwire⟩ := Option.map_eq_some_iff.mp hplay
  refine ⟨s, hs, hwire, System.close_is_last plainEndpoint 2 s ?_⟩
  exact runs_of_play (D := fun s a => decide (s.Orderly plainEndpoint a)) _
    (fun s a h => of_decide_eq_true h) _ hs (by decide +kernel)

/-- The application closes while the reader waits for a frame; the peer's CLOSE, which answers it,
is echoed before the socket is closed. -/
theorem close_written_twice :
    ∃ s : System (Fin 2),
      play (System.step plainEndpoint 1) .opened
        (.start 1 (.echo 1000 Key.zero) :: runs 1 3 ++
          .start 0 (.close 1000 [] Key.zero) :: runs 0 7 ++ runs 1 4) = some s ∧
      s.wire = [[0x88, 0x02, 0x03, 0xe8], [0x88, 0x02, 0x03, 0xe8]] ∧
      ¬((s.wire.filter isCloseFrame).length ≤ 1 ∧ CloseIsLast s.wire) := by
  have hplay : (play (System.step plainEndpoint (1 : Fin 2)) .opened
      (.start 1 (.echo 1000 Key.zero) :: runs 1 3 ++
        .start 0 (.close 1000 [] Key.zero) :: runs 0 7 ++ runs 1 4)).map (fun s => s.wire) =
        some [[0x88, 0x02, 0x03, 0xe8], [0x88, 0x02, 0x03, 0xe8]] := by
    decide +kernel
  obtain ⟨s, hs, hwire⟩ := Option.map_eq_some_iff.mp hplay
  refine ⟨s, hs, hwire, fun h => ?_⟩
  have htwo := h.1
  rw [hwire] at htwo
  revert htwo
  decide

end Wscpp.Cpp
