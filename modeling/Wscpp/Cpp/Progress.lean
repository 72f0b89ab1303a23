import Wscpp.Lib.Waiting
import Wscpp.Cpp.Callbacks

/-!
# Who waits for whom in a wscpp connection

A thread waits for `write_mutex_`, in `join_reader_if_needed` for the reader, or for the peer.  For
the peer it waits in two places: the reader in its read, for bytes to come, and whoever writes, for
the peer to take the bytes; the write is a blocking one and is done under `write_mutex_`.  Both end
when the socket is closed.

Unlike in ws-rs, a read holds nothing that a sender needs: in all runs in which no handler calls the
library while its thread holds `write_mutex_`, what a thread other than the reader waits for is in
the end a thread that can go on, or the one that writes, but never the peer's next frame
(`never_waits_for_frame`).  Nor does `close` wait for one: it shuts the socket before it joins, and
once `is_open_` is clear all that is under way comes to an end, unless a write on the open socket
waits for a peer that takes nothing (`shutdown_completes`).  A read that fails clears `is_open_` and
leaves the socket open, so this can happen: the peer has ended its half of the stream and does not
read, and a sender waits for it with the mutex.

The condition excludes one handler.  `handle_ping_frame` reports a pong that cannot be written to
`on_error` under the lock.  A handler that sends or closes there returns at the first tests of its
call, the connection being closed or closing, or comes to the lock; at the lock it stays for ever,
and from then on no other thread gets it (`locked_handler_hangs`).
-/

namespace Wscpp.Cpp.Lifecycle

open Moves

/-! ## What is said of a place -/

/-- The function has closed the socket and is going to join the reader. -/
def shut : List Instr → Bool
  | [] => false
  | .closeSocket :: _ => false
  | .receive :: _ => false
  | .join :: _ => true
  | _ :: rest => shut rest

/-- The function is the read, or comes to it although the connection is not open. -/
def listening : List Instr → Bool
  | [] => false
  | .receive :: _ => true
  | .require .isOpen _ :: _ => false
  | _ :: rest => listening rest

/-- What holds at every place and of each way on from it, about what waits. -/
structure CheckedWaits : Prop where
  shut_along : checks (fun _ i rest d =>
    !shut d || shut (i :: rest) || i == .closeSocket) places = true
  /-- Only a check of `is_open_` leads to the read. -/
  listening_along : checks (fun isOpen i _ d =>
    !listening d || (isOpen && d == [.receive] && i == .require .isOpen .quit)) readerPlaces = true
  /-- A call that clears `is_open_` closes the socket next. -/
  clearOpen_along : checks (fun _ i _ d =>
    i != .clearOpen || d.head? == some .closeSocket) callPlaces = true
  /-- Under the lock nothing waits. -/
  held_facts : places.all (fun c =>
    !held c || (c != [] && c.head? != some .lock && c.head? != some .join &&
      c.head? != some .receive)) = true
  /-- What writes holds the lock. -/
  writing_facts : places.all (fun c =>
    !(c.head? == some .write || c.head? == some .reply) || held c) = true

lemma checkedWaits : CheckedWaits := by
  constructor <;> decide +kernel

lemma loud_of_listening {c : List Instr} (h : listening c = true) : loud c = true := by
  fun_induction listening c with
  | case1 => simp at h
  | case2 => rfl
  | case3 => simp at h
  | case4 i rest h1 h2 ih =>
      cases i with
      | receive => rfl
      | require flag x =>
          cases flag with
          | isOpen => exact absurd rfl (h2 _)
          | notClosing => exact ih h
      | invoke callback => cases callback <;> first | rfl | exact ih h
      | reply => rfl
      | _ => exact ih h

lemma Call.program_open (c : Call) : held c.program = false ∧ shut c.program = false := by
  cases c <;> decide

/-- What is left of a call that writes, up to where it takes the mutex. -/
def untilLock : List (List Instr) :=
  (Call.send.program.tails ++ Call.close.program.tails).filter (·.contains .lock)

lemma Call.program_untilLock {c : Call} (hc : c ≠ .unsent) : c.program ∈ untilLock := by
  cases c with
  | unsent => exact absurd rfl hc
  | _ => decide

lemma untilLock_closed : checks (fun _ i rest d =>
    i == .lock || ((System.entered i).isEmpty && i != .unlock &&
      (decide (d ∈ untilLock) || (d.isEmpty && rest != [] &&
        match i with
        | .require _ _ => true
        | _ => false)))) untilLock = true := by
  decide +kernel

/-- The entry is a function that holds `write_mutex_`. -/
def Frame.held (f : Frame) : Bool := Lifecycle.held f.rest

namespace System

variable {ι : Type} [DecidableEq ι] {opener reader : ι} {s s' : System ι} {t u : ι} {a : Act ι}

/-! ## The mutex -/

/-- How many functions of a thread hold `write_mutex_`. -/
def locks (s : System ι) (t : ι) : ℕ := (s.stack t).countP Frame.held

/-- `write_mutex_` is held by the function that took it. -/
def Locked (s : System ι) : Prop := ∀ t, s.locks t = if s.writeMutex = some t then 1 else 0

section Run

variable {arrival : Arrival} {ok : Bool} {i : Instr} {rest : List Instr} {below : List Frame}

lemma locks_of_put {stack : List Frame} (hstack : s'.stack = Function.update s.stack t stack) :
    s'.locks = Function.update s.locks t (stack.countP Frame.held) := by
  funext u
  rcases eq_or_ne u t with rfl | hne
  · rw [locks, hstack, Function.update_self, Function.update_self]
  · rw [locks, hstack, Function.update_of_ne hne, Function.update_of_ne hne, locks]

lemma locks_ran : (s.ran t arrival ok i rest below).locks = Function.update s.locks t
    (below.countP Frame.held + if held (s.next arrival ok rest i) = true then 1 else 0) := by
  rw [locks_of_put (ran_stack arrival ok)]
  have hnone : (entered i).countP Frame.held = 0 := by cases i <;> rfl
  rw [List.countP_append, hnone, List.countP_cons, Nat.zero_add]
  rfl

omit [DecidableEq ι] in
lemma locks_of_stack (hstack : s.stack t = .code (i :: rest) :: below) :
    s.locks t = below.countP Frame.held + if held (i :: rest) = true then 1 else 0 := by
  rw [locks, hstack, List.countP_cons]
  rfl

lemma ran_writeMutex (hlock : i ≠ .lock) (hunlock : i ≠ .unlock) :
    (s.ran t arrival ok i rest below).writeMutex = s.writeMutex := by
  cases i with
  | lock => exact absurd rfl hlock
  | unlock => exact absurd rfl hunlock
  | invoke callback => cases callback <;> rfl
  | _ => rfl

variable (h : Kept opener reader s) (hstack : s.stack t = .code (i :: rest) :: below)

include h hstack

/-- Whether the function holds the mutex after an instruction. -/
lemma Kept.held_next (hlock : i ≠ .lock) (hunlock : i ≠ .unlock) :
    held (s.next arrival ok rest i) = held (i :: rest) := by
  have hcheck := of_checks s arrival ok checked.held_along (h.mem_places hstack)
  split at hcheck
  · exact absurd rfl hlock
  · exact absurd rfl hunlock
  · exact beq_iff_eq.mp hcheck

/-- **The mutex, one instruction.** -/
lemma Kept.locked_ran (hlocked : s.Locked) (hfree : s.blocked reader t i = false) :
    (s.ran t arrival ok i rest below).Locked := by
  have hcheck := of_checks s arrival ok checked.held_along (h.mem_places hstack)
  have hself := locks_of_stack hstack
  intro u
  rw [locks_ran]
  by_cases hlock : i = .lock
  · subst hlock
    -- the mutex is free, so nobody counts as its holder
    have hnone : s.writeMutex = none := by simpa [blocked] using hfree
    have hzero := hlocked t
    rw [hself, hnone] at hzero
    have hnext : held (s.next arrival ok rest .lock) = true := hcheck
    rcases eq_or_ne u t with rfl | hne
    · rw [Function.update_self, hnext]
      show _ = if some u = some u then 1 else 0
      simp only [reduceCtorEq, if_false] at hzero
      simp only [if_true]
      omega
    · rw [Function.update_of_ne hne, hlocked u, hnone]
      show _ = if some t = some u then 1 else 0
      simp [Ne.symm hne]
  by_cases hunlock : i = .unlock
  · subst hunlock
    have hnext : held (s.next arrival ok rest .unlock) = false := by simpa using hcheck
    have hheld : held (.unlock :: rest) = true := rfl
    have hone := hlocked t
    rw [hself, hheld] at hone
    simp only [if_true] at hone
    -- who unlocks counts as its holder, and so is
    have howner : s.writeMutex = some t := by
      by_contra hne
      rw [if_neg hne] at hone
      omega
    rw [if_pos howner] at hone
    rcases eq_or_ne u t with rfl | hne
    · rw [Function.update_self, hnext]
      show _ = if none = some u then 1 else 0
      simp only [Bool.false_eq_true, reduceCtorEq, if_false]
      omega
    · rw [Function.update_of_ne hne, hlocked u, howner]
      show _ = if none = some u then 1 else 0
      simp [Ne.symm hne]
  · -- no other instruction touches it
    rw [ran_writeMutex hlock hunlock, h.held_next hstack hlock hunlock, ← hself]
    rw [Function.update_eq_self]
    exact hlocked u

end Run

lemma Locked.put {stack : List Frame} (h : s.Locked)
    (hstack : stack.countP Frame.held = s.locks t) : (s.put t stack).Locked := by
  have hlocks : (s.put t stack).locks = _ := locks_of_put rfl
  intro u
  rw [hlocks, hstack, Function.update_eq_self]
  exact h u

/-- **The mutex, one step.** -/
lemma Kept.locked_step (h : Kept opener reader s) (hlocked : s.Locked)
    (hstep : s.step reader a = some s') : s'.Locked := by
  cases stepped_of_step hstep with
  | @call t c hstack =>
      refine hlocked.put ?_
      rw [List.countP_cons_of_neg (by simp [Frame.held, Frame.rest, c.program_open.1])]
      rfl
  | turn hidle hreading =>
      refine hlocked.put ?_
      rw [locks, hidle]
      rfl
  | run hstack hfree => exact h.locked_ran hstack hlocked hfree
  | @ret t f below hstack hf =>
      refine hlocked.put ?_
      rw [locks, hstack]
      rcases hf with rfl | rfl
      · exact (List.countP_cons_of_neg (by simp [Frame.held, Frame.rest, held])).symm
      · exact (List.countP_cons_of_neg (by simp [Frame.held, Frame.rest, held])).symm

lemma locked_opened : (opened opener).Locked := by
  intro t
  show _ = if none = some t then 1 else 0
  simp only [reduceCtorEq, if_false]
  refine List.countP_eq_zero.mpr fun f hf => ?_
  obtain ⟨-, rfl⟩ := mem_opened hf
  decide

/-! ## A handler under the lock -/

section Held

variable {i : Instr} {rest : List Instr} {below : List Frame}

/-- While a thread holds the mutex in a function that has something left to do, a step of the system
leaves both alone, or is the next instruction of that function. -/
lemma Kept.held_step (h : Kept opener reader s) (hlocked : s.Locked)
    (hheld : s.writeMutex = some t) (hstack : s.stack t = .code (i :: rest) :: below)
    (hstep : s.step reader a = some s') :
    (s'.writeMutex = some t ∧ s'.stack t = .code (i :: rest) :: below) ∨
      ∃ arrival ok, s.blocked reader t i = false ∧ s' = s.ran t arrival ok i rest below := by
  have hother : ∀ {u : ι} {stack : List Frame}, t ≠ u →
      Function.update s.stack u stack t = .code (i :: rest) :: below := by
    intro u stack hne
    rw [Function.update_of_ne hne, hstack]
  cases stepped_of_step hstep with
  | @call u c hcall =>
      refine .inl ⟨hheld, hother ?_⟩
      rintro rfl
      simp [hstack] at hcall
  | turn hidle hreading =>
      refine .inl ⟨hheld, hother ?_⟩
      rintro rfl
      simp [hstack] at hidle
  | @run u arrival ok i' rest' below' hrun hfree =>
      rcases eq_or_ne t u with rfl | hne
      · rw [hstack] at hrun
        simp only [List.cons.injEq, Frame.code.injEq] at hrun
        obtain ⟨⟨rfl, rfl⟩, rfl⟩ := hrun
        exact .inr ⟨arrival, ok, hfree, rfl⟩
      · refine .inl ⟨?_, by rw [ran_stack]; exact hother hne⟩
        rw [ran_writeMutex, hheld]
        · rintro rfl
          simp [blocked, hheld] at hfree
        · -- nobody releases what another holds
          rintro rfl
          have hone := hlocked u
          have htop : held (.unlock :: rest') = true := rfl
          rw [locks_of_stack hrun, hheld, htop] at hone
          simp [hne] at hone
  | @ret u f below' hret hf =>
      refine .inl ⟨hheld, hother ?_⟩
      rintro rfl
      rw [hstack] at hret
      simp only [List.cons.injEq] at hret
      rcases hf with rfl | rfl <;> simp at hret

lemma Kept.hangs_step (h : Kept opener reader s) (hlocked : s.Locked)
    (hheld : s.writeMutex = some t) (hstack : s.stack t = .code (.lock :: rest) :: below)
    (hstep : s.step reader a = some s') :
    s'.writeMutex = some t ∧ s'.stack t = .code (.lock :: rest) :: below := by
  refine (h.held_step hlocked hheld hstack hstep).resolve_right ?_
  rintro ⟨-, -, hfree, -⟩
  simp [blocked, hheld] at hfree

/-- The handler's call is at one of its first tests or at the lock. -/
def Caught (t : ι) (below : List Frame) (s : System ι) : Prop :=
  s.writeMutex = some t ∧ ∃ c ∈ untilLock, s.stack t = .code c :: below

/-- The handler's call has left at one of its first tests: the connection is closed or closing. -/
def Left (t : ι) (below : List Frame) (s : System ι) : Prop :=
  s.stack t = .code [] :: below ∧ (s.isOpen = false ∨ s.isClosing = true)

/-- A call under the lock goes on to the lock, or leaves. -/
lemma Kept.caught_step (h : Kept opener reader s) (hlocked : s.Locked) (hcaught : Caught t below s)
    (hstep : s.step reader a = some s') : Caught t below s' ∨ Left t below s' := by
  obtain ⟨hheld, c, hc, hstack⟩ := hcaught
  cases c with
  | nil => exact absurd hc (by decide)
  | cons i rest =>
      rcases h.held_step hlocked hheld hstack hstep with ⟨hheld', hstack'⟩ |
        ⟨arrival, ok, hfree, rfl⟩
      · exact .inl ⟨hheld', _, hc, hstack'⟩
      · have hcheck := of_checks s arrival ok untilLock_closed hc
        simp only [Bool.or_eq_true, Bool.and_eq_true, List.isEmpty_iff, bne_iff_ne, beq_iff_eq,
          decide_eq_true_eq] at hcheck
        rcases hcheck with rfl | ⟨⟨hentered, hunlock⟩, hnext⟩
        · simp [blocked, hheld] at hfree
        have hstack' : (s.ran t arrival ok i rest below).stack t =
            .code (s.next arrival ok rest i) :: below := by
          rw [ran_stack, Function.update_self, hentered]
          rfl
        have hlock : i ≠ .lock := by
          rintro rfl
          simp [blocked, hheld] at hfree
        rcases hnext with hnext | ⟨⟨hnil, hrest⟩, htest⟩
        · exact .inl ⟨by rw [ran_writeMutex hlock hunlock, hheld], _, hnext, hstack'⟩
        · -- the test has failed
          refine .inr ⟨by rw [hstack', hnil], ?_⟩
          cases i with
          | require flag x =>
              have hflag : s.holds flag = false := by
                by_contra hholds
                have hpassed : s.next arrival ok rest (.require flag x) = rest :=
                  if_pos (by simpa using hholds)
                exact hrest (hpassed ▸ hnil)
              cases flag with
              | isOpen => exact .inl (ran_isOpen hflag)
              | notClosing => exact .inr (ran_isClosing (by simpa [holds] using hflag))
          | _ => simp at htest

end Held

/-- **A call under the lock never returns.**  A thread that calls `send` or `close` in the handler
of `on_error` for a pong that could not be written either returns from it at the first tests, the
connection being closed or closing, or is still before `write_mutex_`, which it holds itself; and
once it waits for the mutex, it does so for ever, and no other thread gets it any more. -/
theorem locked_handler_hangs (opener reader : ι) (hne : opener ≠ reader) (s : System ι)
    (hrun : Runs (step reader) (fun _ _ => True) (opened opener) s) (t : ι)
    (hheld : s.writeMutex = some t) (s' : System ι)
    (hrun' : Runs (step reader) (fun _ _ => True) s s') :
    (∀ (call : Call) below, call ≠ .unsent → s.stack t = .code call.program :: .handler :: below →
      Caught t (.handler :: below) s' ∨
        ∃ s₁, Runs (step reader) (fun _ _ => True) s s₁ ∧ Left t (.handler :: below) s₁ ∧
          Runs (step reader) (fun _ _ => True) s₁ s') ∧
    ∀ rest below, s.stack t = .code (.lock :: rest) :: below →
      s'.writeMutex = some t ∧ s'.stack t = .code (.lock :: rest) :: below := by
  have hstart : Kept opener reader s ∧ s.Locked :=
    hrun.invariant (I := fun s => Kept opener reader s ∧ s.Locked)
      ⟨kept_opened hne, locked_opened⟩ fun _ _ _ h _ hstep =>
        ⟨h.1.step hstep, h.1.locked_step h.2 hstep⟩
  have hkept : ∀ u, Runs (step reader) (fun _ _ => True) s u → Kept opener reader u ∧ u.Locked :=
    fun u hrun => hrun.invariant (I := fun s => Kept opener reader s ∧ s.Locked) hstart
      fun _ _ _ h _ hstep => ⟨h.1.step hstep, h.1.locked_step h.2 hstep⟩
  constructor
  · intro call below hcall hstack
    have hcaught : Caught t (.handler :: below) s :=
      ⟨hheld, call.program, call.program_untilLock hcall, hstack⟩
    -- by induction on the run: the call is caught until it leaves
    induction hrun' with
    | refl => exact .inl hcaught
    | @tail u v hrun₁ hmove ih =>
        rcases ih with hstill | ⟨s₁, hbefore, hleft, hafter⟩
        · obtain ⟨a, -, hstep⟩ := id hmove
          obtain ⟨hk, hl⟩ := hkept u hrun₁
          rcases hk.caught_step hl hstill hstep with hstill | hleft
          · exact .inl hstill
          · exact .inr ⟨v, hrun₁.tail hmove, hleft, .refl⟩
        · exact .inr ⟨s₁, hbefore, hleft, hafter.tail hmove⟩
  · intro rest below hstack
    have hall := hrun'.invariant (I := fun s => (Kept opener reader s ∧ s.Locked) ∧
        s.writeMutex = some t ∧ s.stack t = .code (.lock :: rest) :: below)
      ⟨hstart, hheld, hstack⟩ fun _ _ _ h _ hstep =>
        ⟨⟨h.1.1.step hstep, h.1.1.locked_step h.1.2 hstep⟩,
          h.1.1.hangs_step h.1.2 h.2.1 h.2.2 hstep⟩
    exact hall.2

/-- A pong cannot be written, and the handler of `on_error` sends a message. -/
def sendUnderLock : List (Act Bool) :=
  openAndWait ++ runs true 6 .ping ++
    [.run true .silent false, .run true .silent true, .call true .send]

theorem locked_handler_hangs_pong :
    ∃ s : System Bool, play (step true) (opened false) sendUnderLock = some s ∧
      ∀ s', Runs (step true) (fun _ _ => True) s s' →
        Caught true [.handler, .code [.unlock, .require .isOpen .quit]] s' ∨
          ∃ s₁, Runs (step true) (fun _ _ => True) s s₁ ∧
            Left true [.handler, .code [.unlock, .require .isOpen .quit]] s₁ ∧
            Runs (step true) (fun _ _ => True) s₁ s' := by
  have hplay : (play (step true) (opened false) sendUnderLock).map
      (fun s => (s.writeMutex, s.stack true)) = some (some true, .code Call.send.program ::
        [.handler, .code [.unlock, .require .isOpen .quit]]) := by
    decide +kernel
  obtain ⟨s, hs, hsummary⟩ := Option.map_eq_some_iff.mp hplay
  simp only [Prod.mk.injEq] at hsummary
  have hrun : Runs (step true) (fun _ _ => True) (opened false) s :=
    runs_of_play (D := fun _ _ => true) _ (fun _ _ _ => trivial) _ hs (by decide +kernel)
  refine ⟨s, hs, fun s' hrun' => ?_⟩
  exact (locked_handler_hangs false true (by decide) s hrun true hsummary.1 s' hrun').1 .send _
    (by decide) hsummary.2

/-- The connection is open, so the send comes to the lock, and stays there. -/
example : (play (step true) (opened false) (sendUnderLock ++ runs true 1 .silent)).map
      (fun s => (s.writeMutex, (s.stack true).head?)) =
    some (some true, some (.code [.lock, .require .isOpen .release,
      .require .notClosing .release, .write, .unlock])) := by
  decide +kernel

/-! ## Runs without one -/

/-- No handler calls the library while its thread holds `write_mutex_`. -/
def Unguarded (s : System ι) : Act ι → Prop
  | .call t _ => s.writeMutex ≠ some t
  | _ => True

instance (s : System ι) (a : Act ι) : Decidable (s.Unguarded a) :=
  match a with
  | .call t _ => inferInstanceAs (Decidable (s.writeMutex ≠ some t))
  | .turn => inferInstanceAs (Decidable True)
  | .run _ _ _ => inferInstanceAs (Decidable True)
  | .ret _ => inferInstanceAs (Decidable True)

/-- What holds along such runs. -/
structure Sober (opener reader : ι) (s : System ι) : Prop extends Kept opener reader s where
  locked : s.Locked
  /-- The function that holds the mutex is the one that runs, or the one that reports a pong. -/
  topped : ∀ t, s.writeMutex = some t → ∃ c below, held c = true ∧
    (s.stack t = .code c :: below ∨ s.stack t = .handler :: .code c :: below)
  /-- The reader is joined when the socket is closed. -/
  shut : ∀ t, ∀ f ∈ s.stack t, Lifecycle.shut f.rest = true → s.socketOpen = false
  /-- A reader that waits for the peer although `is_open_` is clear does not wait long. -/
  waking : s.isOpen = false → s.socketOpen = true → ∀ f ∈ s.stack reader,
    listening f.rest = true → ∃ t rest below, s.stack t = .code (.closeSocket :: rest) :: below

section Sober

variable {arrival : Arrival} {ok : Bool} {i : Instr} {rest : List Instr} {below : List Frame}

section Run

variable (h : Sober opener reader s) (hstack : s.stack t = .code (i :: rest) :: below)
  (hfree : s.blocked reader t i = false)

include h hstack

lemma Sober.shut_ran : ∀ u, ∀ f ∈ (s.ran t arrival ok i rest below).stack u,
    Lifecycle.shut f.rest = true → (s.ran t arrival ok i rest below).socketOpen = false := by
  refine forall_ran (fun hshut => ?_) (fun hshut => by simp [Frame.rest, Lifecycle.shut] at hshut)
    (fun f hf hshut => ran_socketOpen_false (h.shut t f (mem_of_cons hstack hf) hshut))
    (fun u _ f hf hshut => ran_socketOpen_false (h.shut u f hf hshut))
  have hcheck := of_checks s arrival ok checkedWaits.shut_along (h.mem_places hstack)
  have hnext : Lifecycle.shut (s.next arrival ok rest i) = true := hshut
  simp only [hnext, Bool.not_true, Bool.false_or, Bool.or_eq_true, beq_iff_eq] at hcheck
  rcases hcheck with hcheck | rfl
  · exact ran_socketOpen_false (h.shut t _ (top_mem hstack) hcheck)
  · rfl

include hfree in
lemma Sober.topped_ran (hu : (s.ran t arrival ok i rest below).writeMutex = some u) :
    ∃ c below', held c = true ∧ ((s.ran t arrival ok i rest below).stack u = .code c :: below' ∨
      (s.ran t arrival ok i rest below).stack u = .handler :: .code c :: below') := by
  rw [ran_stack]
  by_cases hlock : i = .lock
  · subst hlock
    obtain rfl : t = u := Option.some.inj hu
    rw [Function.update_self]
    exact ⟨_, below, of_checks s arrival ok checked.held_along (h.mem_places hstack), .inl rfl⟩
  by_cases hunlock : i = .unlock
  · subst hunlock
    have hnone : (s.ran t arrival ok .unlock rest below).writeMutex = none := rfl
    simp [hnone] at hu
  rw [ran_writeMutex hlock hunlock] at hu
  obtain ⟨c, below', hheld, htop⟩ := h.topped u hu
  rcases eq_or_ne u t with rfl | hne
  · rw [Function.update_self]
    rw [hstack] at htop
    rcases htop with htop | htop
    · simp only [List.cons.injEq, Frame.code.injEq] at htop
      obtain ⟨rfl, rfl⟩ := htop
      refine ⟨s.next arrival ok rest i, below, ?_, ?_⟩
      · rw [h.held_next hstack hlock hunlock, hheld]
      · cases i with
        | invoke callback => exact .inr rfl
        | _ => exact .inl rfl
    · simp at htop
  · rw [Function.update_of_ne hne]
    exact ⟨c, below', hheld, htop⟩

lemma Sober.call_of_clearOpen (ht : t ≠ reader) (hi : i = .clearOpen) :
    i :: rest ∈ callPlaces := by
  rcases h.call_or_opening (top_mem hstack) ht with hopening | hcall
  · simp [Frame.rest, opening, hi] at hopening
  · exact hcall

lemma Sober.waking_ran (hclosed : (s.ran t arrival ok i rest below).isOpen = false)
    (hsocket : (s.ran t arrival ok i rest below).socketOpen = true) {f : Frame}
    (hf : f ∈ (s.ran t arrival ok i rest below).stack reader) (hlisten : listening f.rest = true) :
    ∃ u rest' below', (s.ran t arrival ok i rest below).stack u =
      .code (.closeSocket :: rest') :: below' := by
  have hi : i ≠ .closeSocket := by
    rintro rfl
    have : (s.ran t arrival ok .closeSocket rest below).socketOpen = false := rfl
    simp [this] at hsocket
  rw [ran_socketOpen hi] at hsocket
  rcases eq_or_ne reader t with rfl | hne
  · -- the reader does not come to the read any more
    exfalso
    rw [ran_stack, Function.update_self] at hf
    rcases List.mem_append.mp hf with hin | hin
    · cases i <;> simp only [entered, List.mem_singleton, List.not_mem_nil] at hin
      subst hin
      simp [Frame.rest, listening] at hlisten
    rcases List.mem_cons.mp hin with rfl | hin
    · have hnext : listening (s.next arrival ok rest i) = true := hlisten
      obtain ⟨-, hplace, -⟩ := h.reader_of_next hstack (.inr (.inl (loud_of_listening hnext)))
      have hcheck := of_checks s arrival ok checkedWaits.listening_along hplace
      simp only [hnext, Bool.not_true, Bool.false_or, Bool.and_eq_true, beq_iff_eq] at hcheck
      have hopen : (s.ran reader arrival ok i rest below).isOpen = s.isOpen :=
        effect_isOpen s reader (by simp [hcheck.2])
      rw [hopen, hcheck.1.1] at hclosed
      simp at hclosed
    · obtain ⟨-, halone, -⟩ := h.alone reader f (mem_of_cons hstack hin)
        (loud_of_listening hlisten)
      rw [hstack, List.cons.injEq] at halone
      simp [halone.2] at hin
  · rw [ran_stack, Function.update_of_ne hne] at hf
    by_cases hclear : i = .clearOpen
    · subst hclear
      have hcall : .clearOpen :: rest ∈ callPlaces := h.call_of_clearOpen hstack (Ne.symm hne) rfl
      have hcheck := of_checks s arrival ok checkedWaits.clearOpen_along hcall
      have hhead : (s.next arrival ok rest .clearOpen).head? = some .closeSocket := by
        simpa using hcheck
      obtain ⟨rest', hrest'⟩ := List.head?_eq_some_iff.mp hhead
      refine ⟨t, rest', below, ?_⟩
      rw [ran_stack, Function.update_self, hrest']
      rfl
    · have hopen : (s.ran t arrival ok i rest below).isOpen = s.isOpen := effect_isOpen s t hclear
      rw [hopen] at hclosed
      obtain ⟨u, rest', below', hu⟩ := h.waking hclosed hsocket f hf hlisten
      have hut : u ≠ t := by
        rintro rfl
        rw [hstack] at hu
        simp only [List.cons.injEq, Frame.code.injEq] at hu
        exact hi hu.1.1
      exact ⟨u, rest', below', by rw [ran_stack, Function.update_of_ne hut, hu]⟩

include hfree in
/-- **One instruction.** -/
lemma Sober.ran : Sober opener reader (s.ran t arrival ok i rest below) where
  toKept := h.toKept.ran hstack hfree
  locked := h.locked_ran hstack h.locked hfree
  topped _ hu := h.topped_ran hstack hfree hu
  shut := h.shut_ran hstack
  waking hclosed hsocket _ hf hlisten := h.waking_ran hstack hclosed hsocket hf hlisten

end Run

/-- An entry on top of the stack comes or goes. -/
lemma Sober.put {stack : List Frame} (h : Sober opener reader s)
    (hkept : Kept opener reader (s.put t stack)) (hlocked : (s.put t stack).Locked)
    (htopped : s.writeMutex = some t → ∃ c below, held c = true ∧
      (stack = .code c :: below ∨ stack = .handler :: .code c :: below))
    (hstack : ∀ f ∈ stack, f ∈ s.stack t ∨
      (Lifecycle.shut f.rest = false ∧ listening f.rest = false))
    (hnot : ∀ rest below, s.stack t ≠ .code (.closeSocket :: rest) :: below) :
    Sober opener reader (s.put t stack) where
  toKept := hkept
  locked := hlocked
  topped u hu := by
    show ∃ c below, held c = true ∧ (Function.update s.stack t stack u = .code c :: below ∨
      Function.update s.stack t stack u = .handler :: .code c :: below)
    rcases eq_or_ne u t with rfl | hne
    · rw [Function.update_self]
      exact htopped hu
    · rw [Function.update_of_ne hne]
      exact h.topped u hu
  shut := by
    refine forall_put rfl (fun f hf hshut => ?_) (fun u _ => h.shut u)
    rcases hstack f hf with hold | hnew
    · exact h.shut t f hold hshut
    · simp [hnew.1] at hshut
  waking hclosed hsocket f hf hlisten := by
    -- the entry that has come does not listen
    have hold : f ∈ s.stack reader := by
      have hf : f ∈ Function.update s.stack t stack reader := hf
      rcases eq_or_ne reader t with rfl | hne
      · rw [Function.update_self] at hf
        refine (hstack f hf).resolve_right fun hnew => ?_
        simp [hnew.2] at hlisten
      · rwa [Function.update_of_ne hne] at hf
    obtain ⟨u, rest, below, hu⟩ := h.waking hclosed hsocket f hold hlisten
    have hut : u ≠ t := by
      rintro rfl
      exact hnot rest below hu
    exact ⟨u, rest, below, by
      show Function.update s.stack t stack u = _
      rw [Function.update_of_ne hut, hu]⟩

/-- **One step.** -/
lemma Sober.step (h : Sober opener reader s) (ha : s.Unguarded a)
    (hstep : s.step reader a = some s') : Sober opener reader s' := by
  have hkept := h.toKept.step hstep
  have hlocked := h.locked_step h.locked hstep
  cases stepped_of_step hstep with
  | @call t c hstack =>
      refine h.put hkept hlocked (fun hheld => absurd hheld ha) ?_ ?_
      · refine List.forall_mem_cons.mpr ⟨.inr ⟨c.program_open.2, ?_⟩, fun f hf => .inl hf⟩
        rw [← Bool.not_eq_true]
        intro hlisten
        -- the program of a call does not read
        have hloud := loud_of_listening hlisten
        simp [Frame.rest, (call_facts c.program_mem).1] at hloud
      · rintro rest below hcontra
        simp [hcontra] at hstack
  | turn hidle hreading =>
      refine h.put hkept hlocked (fun hheld => ?_) ?_ ?_
      · -- the thread that holds the mutex is in a function
        obtain ⟨c, below, -, htop⟩ := h.topped reader hheld
        simp [hidle] at htop
      · intro f hf
        rw [List.mem_singleton] at hf
        subst hf
        exact .inr ⟨rfl, rfl⟩
      · simp [hidle]
  | run hstack hfree => exact h.ran hstack hfree
  | @ret t f below hstack hf =>
      refine h.put hkept hlocked (fun hheld => ?_) (fun g hg => .inl (mem_of_cons hstack hg)) ?_
      · obtain ⟨c, below', hc, htop⟩ := h.topped t hheld
        rw [hstack] at htop
        rcases htop with htop | htop
        · simp only [List.cons.injEq] at htop
          rcases hf with rfl | rfl
          · obtain ⟨⟨rfl⟩, -⟩ := htop
            simp [held] at hc
          · simp at htop
        · simp only [List.cons.injEq] at htop
          exact ⟨c, below', hc, .inl htop.2⟩
      · rintro rest below' hcontra
        rw [hstack, List.cons.injEq] at hcontra
        rcases hf with rfl | rfl <;> simp at hcontra

lemma sober_opened (hne : opener ≠ reader) : Sober opener reader (opened opener) where
  toKept := kept_opened hne
  locked := locked_opened
  topped _ hu := by simp [opened] at hu
  shut t f hf hshut := by
    obtain ⟨-, rfl⟩ := mem_opened hf
    simp [Frame.rest, opening, Lifecycle.shut] at hshut
  waking hclosed := by simp [opened] at hclosed

lemma sober_of_runs (hne : opener ≠ reader) (hrun : Runs (System.step reader) Unguarded
    (opened opener) s) : Sober opener reader s :=
  hrun.invariant (sober_opened hne) fun _ _ _ h ha hstep => h.step ha hstep

end Sober

/-! ## Waiting -/

/-- The thread that goes on by itself, in a step that is no new call. -/
def thread (reader : ι) : Act ι → Option ι
  | .call _ _ => none
  | .turn => some reader
  | .run t _ _ => some t
  | .ret t => some t

/-- The thread waits for bytes of the peer. -/
def awaits (s : System ι) (t : ι) : Bool :=
  match s.stack t with
  | .code (.receive :: _) :: _ => s.socketOpen
  | _ => false

/-- The thread writes, and may have to wait until the peer takes the bytes. -/
def writes (s : System ι) (t : ι) : Bool :=
  match s.stack t with
  | .code (.write :: _) :: _ => s.socketOpen
  | .code (.reply :: _) :: _ => s.socketOpen
  | _ => false

/-- The thread can go on, without the peer. -/
def CanGo (reader : ι) (s : System ι) (t : ι) : Prop :=
  s.awaits t = false ∧ s.writes t = false ∧
    ∃ a, thread reader a = some t ∧ (s.step reader a).isSome = true

/-- The thread can go on, or it writes, with the mutex, and may wait for the peer. -/
def GoesOrWrites (reader : ι) (s : System ι) (t : ι) : Prop :=
  CanGo reader s t ∨ (s.writes t = true ∧ s.writeMutex = some t)

/-- The thread waits for the mutex that the other one has, or for the reader to end. -/
def WaitsFor (reader : ι) (s : System ι) (t u : ι) : Prop :=
  (∃ rest below, s.stack t = .code (.lock :: rest) :: below ∧ s.writeMutex = some u) ∨
    (∃ rest below, s.stack t = .code (.join :: rest) :: below ∧ s.reading = true ∧ t ≠ reader ∧
      u = reader)

section Waiting

variable {i : Instr} {rest : List Instr} {below : List Frame} {c : List Instr}

lemma canGo_handler (hstack : s.stack t = .handler :: below) : CanGo reader s t :=
  ⟨by rw [awaits, hstack], by rw [writes, hstack], .ret t, rfl, by rw [step, hstack]; rfl⟩

lemma canGo_code_nil (hstack : s.stack t = .code [] :: below) : CanGo reader s t :=
  ⟨by rw [awaits, hstack], by rw [writes, hstack], .ret t, rfl, by rw [step, hstack]; rfl⟩

lemma canGo_of_free (hstack : s.stack t = .code (i :: rest) :: below)
    (hfree : s.blocked reader t i = false) (hawaits : s.awaits t = false)
    (hwrites : s.writes t = false) : CanGo reader s t := by
  refine ⟨hawaits, hwrites, .run t .silent true, rfl, ?_⟩
  rw [step, hstack]
  simp only [hfree]
  rfl

lemma canGo_turn (hidle : s.stack reader = []) (hreading : s.reading = true) :
    CanGo reader s reader := by
  refine ⟨by rw [awaits, hidle], by rw [writes, hidle], .turn, rfl, ?_⟩
  rw [step, hidle]
  simp [hreading]

/-- A function goes on, unless it is one of those that wait. -/
lemma canGo_code (hstack : s.stack t = .code c :: below) (hlock : c.head? ≠ some .lock)
    (hjoin : c.head? ≠ some .join ∨ t = reader ∨ s.reading = false)
    (hreceive : c.head? ≠ some .receive ∨ s.socketOpen = false) (hwrites : s.writes t = false) :
    CanGo reader s t := by
  cases c with
  | nil => exact canGo_code_nil hstack
  | cons i rest =>
      refine canGo_of_free hstack ?_ ?_ hwrites
      · cases i with
        | lock => simp at hlock
        | join =>
            simp only [List.head?_cons, ne_eq, not_true_eq_false, false_or] at hjoin
            rcases hjoin with ht | hreading
            · simp [blocked, ht]
            · simp [blocked, hreading]
        | _ => rfl
      · rw [awaits, hstack]
        cases i with
        | receive => simpa using hreceive
        | _ => rfl

omit [DecidableEq ι] in
/-- What a thread writes it writes in the function on top of its stack. -/
lemma exists_of_writes (hwrites : s.writes t = true) : s.socketOpen = true ∧
    ∃ i rest below, s.stack t = .code (i :: rest) :: below ∧ (i = .write ∨ i = .reply) := by
  unfold writes at hwrites
  split at hwrites
  · rename_i rest below hstack
    exact ⟨hwrites, .write, rest, below, hstack, .inl rfl⟩
  · rename_i rest below hstack
    exact ⟨hwrites, .reply, rest, below, hstack, .inr rfl⟩
  · cases hwrites

variable (h : Sober opener reader s)

include h

/-- Whoever writes has the mutex. -/
lemma Sober.owner_of_writes (hwrites : s.writes t = true) : s.writeMutex = some t := by
  obtain ⟨-, i, rest, below, hstack, hi⟩ := exists_of_writes hwrites
  have hheld : held (i :: rest) = true := by
    have hfacts := List.all_eq_true.mp checkedWaits.writing_facts _ (h.mem_places hstack)
    rcases hi with rfl | rfl
    · simpa using hfacts
    · simpa using hfacts
  have hcount := locks_of_stack hstack
  rw [h.locked t, hheld] at hcount
  by_contra hne
  rw [if_neg hne] at hcount
  simp at hcount

lemma Sober.goes_code (hstack : s.stack t = .code c :: below) (hlock : c.head? ≠ some .lock)
    (hjoin : c.head? ≠ some .join ∨ t = reader ∨ s.reading = false)
    (hreceive : c.head? ≠ some .receive ∨ s.socketOpen = false) : GoesOrWrites reader s t := by
  cases hwrites : s.writes t with
  | true => exact .inr ⟨hwrites, h.owner_of_writes hwrites⟩
  | false => exact .inl (canGo_code hstack hlock hjoin hreceive hwrites)

/-- The thread that holds the mutex can go on, or writes. -/
lemma Sober.goes_holder (hheld : s.writeMutex = some t) : GoesOrWrites reader s t := by
  obtain ⟨c, below, hc, htop | htop⟩ := h.topped t hheld
  · have hplace : c ∈ places := by
      have hmem : .code c ∈ s.stack t := by rw [htop]; exact List.mem_cons_self
      exact h.place_of_mem hmem
    have hfacts := List.all_eq_true.mp checkedWaits.held_facts c hplace
    simp only [hc, Bool.not_true, Bool.false_or, Bool.and_eq_true, bne_iff_ne] at hfacts
    exact h.goes_code htop hfacts.1.1.2 (.inl hfacts.1.2) (.inl hfacts.2)
  · exact .inl (canGo_handler htop)

/-- A thread that runs, or waits for the mutex. -/
lemma Sober.exists_goes_of_code (hstack : s.stack t = .code c :: below)
    (hjoin : c.head? ≠ some .join ∨ t = reader ∨ s.reading = false)
    (hreceive : c.head? ≠ some .receive ∨ s.socketOpen = false) :
    ∃ u, Relation.ReflTransGen (WaitsFor reader s) t u ∧ GoesOrWrites reader s u := by
  by_cases hlock : c.head? = some .lock
  · obtain ⟨rest, rfl⟩ := List.head?_eq_some_iff.mp hlock
    cases howner : s.writeMutex with
    | none =>
        refine ⟨t, .refl, .inl (canGo_of_free hstack ?_ ?_ ?_)⟩
        · simp [blocked, howner]
        · rw [awaits, hstack]
        · rw [writes, hstack]
    | some u =>
        exact ⟨u, .single (.inl ⟨rest, below, hstack, howner⟩), h.goes_holder howner⟩
  · exact ⟨t, .refl, h.goes_code hstack hlock hjoin hreceive⟩

/-- The reader goes on once the socket is closed. -/
lemma Sober.exists_goes_reader (hreading : s.reading = true) (hsocket : s.socketOpen = false) :
    ∃ u, Relation.ReflTransGen (WaitsFor reader s) reader u ∧ GoesOrWrites reader s u := by
  rcases hstack : s.stack reader with _ | ⟨f, below⟩
  · exact ⟨reader, .refl, .inl (canGo_turn hstack hreading)⟩
  · cases f with
    | handler => exact ⟨reader, .refl, .inl (canGo_handler hstack)⟩
    | code c => exact h.exists_goes_of_code hstack (.inr (.inl rfl)) (.inr hsocket)

/-- Whom a thread waits for in the end. -/
lemma Sober.exists_goes (ht : s.stack t ≠ []) (hawaits : s.awaits t = false) :
    ∃ u, Relation.ReflTransGen (WaitsFor reader s) t u ∧ GoesOrWrites reader s u := by
  rcases hstack : s.stack t with _ | ⟨f, below⟩
  · exact absurd hstack ht
  cases f with
  | handler => exact ⟨t, .refl, .inl (canGo_handler hstack)⟩
  | code c =>
      have hreceive : c.head? ≠ some .receive ∨ s.socketOpen = false := by
        by_cases hc : c.head? = some .receive
        · obtain ⟨rest, rfl⟩ := List.head?_eq_some_iff.mp hc
          rw [awaits, hstack] at hawaits
          exact .inr hawaits
        · exact .inl hc
      by_cases hjoin : c.head? ≠ some .join ∨ t = reader ∨ s.reading = false
      · exact h.exists_goes_of_code hstack hjoin hreceive
      · -- who joins has closed the socket, so the reader does not wait for a frame
        simp only [ne_eq, not_or, not_not, Bool.not_eq_false] at hjoin
        obtain ⟨hc, htr, hreading⟩ := hjoin
        obtain ⟨rest, rfl⟩ := List.head?_eq_some_iff.mp hc
        have hsocket := h.shut t _ (top_mem hstack) rfl
        obtain ⟨u, hchain, hgo⟩ := h.exists_goes_reader hreading hsocket
        exact ⟨u, .head (.inr ⟨rest, below, hstack, hreading, htr, rfl⟩) hchain, hgo⟩

lemma Sober.reader_of_awaits (hawaits : s.awaits t = true) : t = reader ∧ s.socketOpen = true ∧
    ∃ f ∈ s.stack reader, listening f.rest = true := by
  rw [awaits] at hawaits
  split at hawaits
  · rename_i rest below hstack
    obtain ⟨rfl, -, -⟩ := h.alone t _ (top_mem hstack) rfl
    exact ⟨rfl, hawaits, _, top_mem hstack, rfl⟩
  · simp at hawaits

end Waiting

/-- **A sender never waits for a frame of the peer.**  In every run in which no handler calls the
library while its thread holds `write_mutex_`: what a thread waits for is in the end a thread that
can go on without the peer, or the one that has the mutex and writes on the open socket, unless it
is the reader and waits for the peer's next frame itself. -/
theorem never_waits_for_frame (opener reader : ι) (hne : opener ≠ reader) (s : System ι)
    (hrun : Runs (step reader) Unguarded (opened opener) s) (t : ι) (ht : s.stack t ≠ []) :
    (∃ u, Relation.ReflTransGen (WaitsFor reader s) t u ∧ GoesOrWrites reader s u) ∨
      (t = reader ∧ s.awaits reader = true) := by
  have hsober := sober_of_runs hne hrun
  cases hawaits : s.awaits t with
  | false => exact .inl (hsober.exists_goes ht hawaits)
  | true =>
      obtain ⟨rfl, -⟩ := hsober.reader_of_awaits hawaits
      exact .inr ⟨rfl, hawaits⟩

/-- A thread waits in `close` for the reader, which waits for the peer no longer. -/
theorem never_waits_for_frame_close :
    ∃ s : System Bool,
      play (step true) (opened false) (openAndWait ++ .call false .close :: runs false 8 .silent) =
        some s ∧
      s.stack false = [.code [.join, .invoke .onClose]] ∧ s.stack true = [.code [.receive]] ∧
      ∃ u, Relation.ReflTransGen (WaitsFor true s) false u ∧ GoesOrWrites true s u := by
  have hplay : (play (step true) (opened false)
      (openAndWait ++ .call false .close :: runs false 8 .silent)).map summary =
      some (0, false, [.code [.join, .invoke .onClose]], [.code [.receive]]) := by
    decide +kernel
  obtain ⟨s, hs, hsummary⟩ := Option.map_eq_some_iff.mp hplay
  simp only [summary, Prod.mk.injEq] at hsummary
  obtain ⟨-, -, hfalse, htrue⟩ := hsummary
  refine ⟨s, hs, hfalse, htrue,
    (never_waits_for_frame false true (by decide) s ?_ false ?_).resolve_right (by simp)⟩
  · exact runs_of_play (D := fun s a => decide (s.Unguarded a)) _
      (fun s a h => of_decide_eq_true h) _ hs (by decide +kernel)
  · simp [hfalse]

end System

/-! ## The end -/

/-- A bound on what is left behind a test that fails. -/
def Exit.cost : Exit → ℕ
  | leave => 1
  | release => 2
  | back => 4
  | releaseBack => 5
  | quit => 2
  | shutdown => 8

/-- A bound on the steps that an instruction leads to, those of its own function apart. -/
def Instr.cost : Instr → ℕ
  | require _ x => 1 + x.cost
  | receive => 40
  | reply => 3
  | invoke _ => 2
  | _ => 1

/-- A bound on the steps that are left of a function, its return included. -/
def weight (c : List Instr) : ℕ := 1 + (c.map Instr.cost).sum

/-- The way out leads to the end of `read_loop`, if the connection is not open. -/
def Exit.quits : Exit → Bool
  | leave | release => false
  | _ => true

/-- The function ends `read_loop`, if the connection is not open. -/
def quits : List Instr → Bool
  | [] => false
  | .quit :: _ => true
  | .receive :: _ => true
  | .require .isOpen x :: _ => x.quits
  | .require .notClosing x :: rest => quits rest && x.quits
  | _ :: rest => quits rest

/-- What holds at every place and of each way on from it, about what is left to do. -/
structure CheckedSteps : Prop where
  weight_along : checks (fun _ i rest d =>
    decide (weight d + (System.entered i).length < weight (i :: rest))) places = true
  quits_along : checks (fun isOpen i rest d =>
    isOpen || !quits (i :: rest) || quits d || i == .quit) places = true

lemma checkedSteps : CheckedSteps := by
  constructor <;> decide +kernel

/-- The steps that are left of an entry. -/
def Frame.weight : Frame → ℕ
  | code c => Lifecycle.weight c
  | handler => 1

/-- The steps that are left on a stack. -/
def burden (stack : List Frame) : ℕ := (stack.map Frame.weight).sum

/-- What the next turn of `read_loop` will take, if there is one. -/
def nextTurn (reading : Bool) (stack : List Frame) : ℕ :=
  if reading && !stack.getLast?.any (quits ·.rest) then weight turn + 1 else 0

lemma nextTurn_le (reading : Bool) (stack : List Frame) :
    nextTurn reading stack ≤ weight turn + 1 := by
  unfold nextTurn
  split_ifs
  · exact Nat.le_refl _
  · exact Nat.zero_le _

namespace System

section Ending

variable {ι : Type} [DecidableEq ι] [Fintype ι] {opener reader : ι} {s s' : System ι} {t : ι}
  {a : Act ι} {arrival : Arrival} {ok : Bool} {i : Instr} {rest : List Instr} {below : List Frame}

/-- What is left to do in all threads. -/
def left (reader : ι) (s : System ι) : ℕ :=
  nextTurn s.reading (s.stack reader) + ∑ t, burden (s.stack t)

lemma left_lt {stack : List Frame} (hput : s'.stack = Function.update s.stack t stack)
    (hlt : nextTurn s'.reading (s'.stack reader) + burden stack <
      nextTurn s.reading (s.stack reader) + burden (s.stack t)) :
    s'.left reader < s.left reader := by
  have hsum := sum_update burden s.stack t stack
  rw [left, left]
  rw [hput] at hlt ⊢
  omega

omit [DecidableEq ι] [Fintype ι] in
/-- What lies below decides whether there is a next turn, or the function that goes on. -/
lemma nextTurn_cons {reading reading' : Bool} {f g : Frame} {above : List Frame}
    (hreading : reading' = true → reading = true)
    (hquits : reading' = true → quits f.rest = true → quits g.rest = true) :
    nextTurn reading' (above ++ g :: below) ≤ nextTurn reading (f :: below) := by
  cases hr : reading' with
  | false => simp [nextTurn]
  | true =>
      rw [hreading hr]
      cases below with
      | cons h below =>
          have hlast : (h :: below).getLast? = some (below.getLast?.getD h) := List.getLast?_cons
          simp [nextTurn, List.getLast?_append, List.getLast?_cons_cons, hlast]
      | nil =>
          cases hq : quits f.rest with
          | false =>
              have hright : nextTurn true [f] = weight turn + 1 := by simp [nextTurn, hq]
              rw [hright]
              exact nextTurn_le _ _
          | true =>
              have hleft : nextTurn true (above ++ [g]) = 0 := by simp [nextTurn, hquits hr hq]
              rw [hleft]
              exact Nat.zero_le _

/-- **An instruction leaves less to do**, once `is_open_` is clear. -/
lemma Kept.left_ran (h : Kept opener reader s) (hclosed : s.isOpen = false)
    (hstack : s.stack t = .code (i :: rest) :: below) :
    (s.ran t arrival ok i rest below).left reader < s.left reader := by
  refine left_lt (ran_stack arrival ok) ?_
  -- the instruction is shorter by one, with what it enters counted in
  have hweight : Lifecycle.weight (s.next arrival ok rest i) + (entered i).length <
      Lifecycle.weight (i :: rest) :=
    of_decide_eq_true (of_checks s arrival ok checkedSteps.weight_along (h.mem_places hstack))
  have hburden : burden (entered i ++ .code (s.next arrival ok rest i) :: below) <
      burden (s.stack t) := by
    have hentered : burden (entered i) = (entered i).length := by cases i <;> rfl
    rw [hstack]
    simp only [burden, List.map_append, List.sum_append, List.map_cons, List.sum_cons,
      Frame.weight] at hentered ⊢
    omega
  have hreading : (s.ran t arrival ok i rest below).reading = true → s.reading = true := by
    by_contra hcontra
    simp only [Classical.not_imp, Bool.not_eq_true] at hcontra
    rw [ran_reading_false (fun _ => hclosed) hcontra.2] at hcontra
    simp at hcontra
  -- and the reader does not get another turn for it
  have hturn : nextTurn (s.ran t arrival ok i rest below).reading
      ((s.ran t arrival ok i rest below).stack reader) ≤ nextTurn s.reading (s.stack reader) := by
    rw [ran_stack]
    rcases eq_or_ne reader t with rfl | hne
    · rw [Function.update_self, hstack]
      refine nextTurn_cons hreading fun hstill hquits => ?_
      have hcheck := of_checks s arrival ok checkedSteps.quits_along (h.mem_places hstack)
      have hquits : quits (i :: rest) = true := hquits
      simp only [hclosed, hquits, Bool.not_true, Bool.false_or, Bool.or_eq_true,
        beq_iff_eq] at hcheck
      refine hcheck.resolve_right ?_
      rintro rfl
      have hended : (s.ran reader arrival ok .quit rest below).reading = false := rfl
      simp [hended] at hstill
    · rw [Function.update_of_ne hne]
      cases hr : (s.ran t arrival ok i rest below).reading with
      | false => simp [nextTurn]
      | true => rw [hreading hr]
  omega

/-- One step of the threads themselves. -/
def Goes (reader : ι) (s s' : System ι) : Prop :=
  ∃ a, (thread reader a).isSome = true ∧ s.step reader a = some s'

/-- **Every step leaves less to do**, once `is_open_` is clear. -/
lemma Kept.left_step (h : Kept opener reader s) (hclosed : s.isOpen = false)
    (hgoes : Goes reader s s') : s'.left reader < s.left reader := by
  obtain ⟨a, ha, hstep⟩ := hgoes
  cases stepped_of_step hstep with
  | call hstack => simp [thread] at ha
  | turn hidle hreading =>
      refine left_lt rfl ?_
      show nextTurn s.reading (Function.update s.stack reader [.code turn] reader) + _ < _
      rw [Function.update_self, hidle, hreading]
      decide
  | run hstack hfree => exact h.left_ran hclosed hstack
  | @ret t f below hstack hf =>
      refine left_lt rfl ?_
      have hlt : burden below < burden (s.stack t) := by
        rw [hstack]
        simp only [burden, List.map_cons, List.sum_cons]
        rcases hf with rfl | rfl
        · simp [Frame.weight, Lifecycle.weight]
        · simp [Frame.weight]
      have hturn : nextTurn s.reading (Function.update s.stack t below reader) ≤
          nextTurn s.reading (s.stack reader) := by
        rcases eq_or_ne reader t with rfl | hne
        · rw [Function.update_self, hstack]
          cases below with
          | cons g below => simp [nextTurn, List.getLast?_cons_cons]
          | nil =>
              have hquits : quits f.rest = false := by rcases hf with rfl | rfl <;> rfl
              simp [nextTurn, hquits]
        · rw [Function.update_of_ne hne]
      show nextTurn s.reading (Function.update s.stack t below reader) + _ < _
      omega

/-- **A closed connection comes to rest.**  In every run in which no handler calls the library while
its thread holds `write_mutex_`, once `is_open_` is clear: the threads come to an end if no further
call begins, whatever still arrives and in whatever order they run; and if none of them can go on
without the peer, the reader has ended and every call, every handler and `close` have returned, or
the thread that has the mutex writes on the open socket and waits for the peer to take the bytes. -/
theorem shutdown_completes (opener reader : ι) (hne : opener ≠ reader) (s : System ι)
    (hrun : Runs (step reader) Unguarded (opened opener) s) (hclosed : s.isOpen = false) :
    Acc (fun s' s => Goes reader s s') s ∧
      ((∀ t, ¬CanGo reader s t) → (s.reading = false ∧ ∀ t, s.stack t = []) ∨
        ∃ t, s.writes t = true ∧ s.writeMutex = some t) := by
  have hsober := sober_of_runs hne hrun
  constructor
  · refine acc_of_decreasing (I := fun s => Kept opener reader s ∧ s.isOpen = false)
      Nat.lt_wfRel.wf (left reader) (fun s s' hinv hgoes => ?_) ⟨hsober.toKept, hclosed⟩
    obtain ⟨hkept, hclosed⟩ := hinv
    have hlt := hkept.left_step hclosed hgoes
    obtain ⟨a, -, hstep⟩ := hgoes
    refine ⟨⟨hkept.step hstep, ?_⟩, hlt⟩
    cases stepped_of_step hstep with
    | run hstack hfree => exact ran_isOpen hclosed
    | _ => exact hclosed
  · intro hstuck
    by_cases hwriting : ∃ t, s.writes t = true ∧ s.writeMutex = some t
    · exact .inr hwriting
    left
    have hnot : ∀ t, ¬GoesOrWrites reader s t := by
      rintro t (hgo | hwrites)
      · exact hstuck t hgo
      · exact hwriting ⟨t, hwrites⟩
    have hidle : ∀ t, s.stack t = [] := by
      intro t
      by_contra ht
      cases hawaits : s.awaits t with
      | false =>
          obtain ⟨u, -, hgo⟩ := hsober.exists_goes ht hawaits
          exact hnot u hgo
      | true =>
          -- whoever has cleared `is_open_` is about to close the socket
          obtain ⟨-, hsocket, f, hf, hlisten⟩ := hsober.reader_of_awaits hawaits
          obtain ⟨u, rest, below, hu⟩ := hsober.waking hclosed hsocket f hf hlisten
          exact hnot u (hsober.goes_code hu (by simp) (.inl (by simp)) (.inl (by simp)))
    refine ⟨?_, hidle⟩
    by_contra hreading
    exact hstuck reader (canGo_turn (hidle reader) (by simpa using hreading))

/-- A sender writes, and the peer ends its half of the stream. -/
def sendAtHalfClose : List (Act Bool) :=
  openAndWait ++ .call false .send :: runs false 4 .silent ++ runs true 2 .lost ++ .ret true ::
    runs true 2 .lost ++ [.ret true]

/-- The connection is closed, the reader has ended, and the sender waits until the peer reads. -/
example : (play (step true) (opened false) sendAtHalfClose).map
      (fun s => (s.isOpen, s.reading, s.writes false, s.stack true)) =
    some (false, false, true, []) := by
  decide +kernel

/-- The application closes while the reader waits for a frame. -/
theorem shutdown_completes_close :
    ∃ s : System Bool,
      play (step true) (opened false) (openAndWait ++ .call false .close :: runs false 8 .silent) =
        some s ∧
      Acc (fun s' s => Goes true s s') s ∧
      ((∀ t, ¬CanGo true s t) → (s.reading = false ∧ ∀ t, s.stack t = []) ∨
        ∃ t, s.writes t = true ∧ s.writeMutex = some t) := by
  have hplay : (play (step true) (opened false)
      (openAndWait ++ .call false .close :: runs false 8 .silent)).map (fun s => s.isOpen) =
      some false := by
    decide +kernel
  obtain ⟨s, hs, hclosed⟩ := Option.map_eq_some_iff.mp hplay
  refine ⟨s, hs, shutdown_completes false true (by decide) s ?_ hclosed⟩
  exact runs_of_play (D := fun s a => decide (s.Unguarded a)) _
    (fun s a h => of_decide_eq_true h) _ hs (by decide +kernel)

end Ending

end System

end Wscpp.Cpp.Lifecycle
