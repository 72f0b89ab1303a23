import Wscpp.Lib.Moves
import Mathlib.Data.List.Basic
import Mathlib.Data.Fintype.Basic
import Mathlib.Tactic.SplitIfs

/-!
# The wscpp server

`server::impl` of `server.cpp` on the Linux transport: the thread of `accept_loop`, a worker thread
for each accepted connection, which runs `handle_accept`, the reader threads of the connections, and
the thread that calls `stop`.  A step is what one of them does with a shared member: the flag
`is_running_`, the acceptor, `pending_handshakes_`, `connections_`, a socket.  An interleaving of
such steps is a run (`Wscpp.Moves`).

Two things are expected of it.

A connection is in `connections_` as long as it is open.  It gets there in `add_connection`, when
its reader is running already, and it leaves by way of `on_close`, which the application may have
replaced and which a failed read does not call.  So this holds in the runs in which `on_close` is
kept, is called only after `add_connection`, and no read fails on an open connection
(`registry_exact`).

`stop` closes every socket, so that no worker can keep it waiting.  It takes the pending connections
once.  This suffices in the runs in which each accepted descriptor has been registered by then, and
adopted before its turn comes (`stop_reaches`).

To close a socket is one step here, which shuts the descriptor down and wakes whoever is in a read
or a write on it.  With TLS `linux_socket::close` calls `SSL_shutdown` first, which writes to the
peer and may wait for it; that is left out.
-/

namespace Wscpp.Cpp.Server

open Moves

/-! ## The system -/

/-- Where the worker of a connection is in `handle_accept`. -/
inductive Phase
  /-- The connection has not been accepted. -/
  | absent
  /-- `accept_one` has returned the descriptor. -/
  | accepted
  /-- The worker thread has been created. -/
  | spawned
  /-- `register_pending` is done, and the handlers are set. -/
  | registered
  /-- `adopt` is done; TLS and the handshake are under way. -/
  | adopted
  /-- The handshake is done. -/
  | upgraded
  /-- `on_connection` has returned. -/
  | introduced
  /-- `activate` is done. -/
  | activated
  /-- `add_connection` is done, or the handshake has failed. -/
  | leaving
  /-- `unregister_pending` is done and the worker has returned. -/
  | returned
  deriving DecidableEq, Repr

/-- A connection, as far as the server is concerned. -/
structure Session where
  phase : Phase
  socketOpen : Bool
  /-- `is_open_`. -/
  isOpen : Bool
  /-- `on_close_` is still the handler that `handle_accept` has set. -/
  hooked : Bool
  /-- How many functions have cleared `is_open_` and have yet to call `on_close_`. -/
  ending : ℕ
  deriving DecidableEq, Repr

/-- Where `accept_loop` is. -/
inductive Loop (ι : Type)
  | top
  | polling
  | ready
  /-- It has an accepted descriptor and no worker for it yet. -/
  | holding (c : ι)
  | exited
  deriving DecidableEq, Repr

/-- Where `stop` is. -/
inductive Stop (ι : Type)
  | idle
  /-- `is_running_` is cleared. -/
  | flagged
  /-- The acceptor is closed. -/
  | deaf
  /-- `shutdown_all_sockets` has taken the pending connections, and has these left to close. -/
  | closingPending (todo : List ι)
  /-- The same with the active ones. -/
  | closingActive (todo : List ι)
  /-- It has left `shutdown_all_sockets`. -/
  | left
  /-- The accept thread is joined. -/
  | joined
  deriving DecidableEq, Repr

namespace Stop

/-- `is_running_`. -/
def running {ι : Type} : Stop ι → Bool
  | idle => true
  | _ => false

/-- The acceptor is open. -/
def listening {ι : Type} : Stop ι → Bool
  | idle | flagged => true
  | _ => false

/-- The pending connection whose socket is closed next. -/
def nextPending {ι : Type} : Stop ι → Option ι
  | closingPending (c :: _) => some c
  | _ => none

end Stop

/-- `server::impl`, with its connections. -/
structure System (ι : Type) where
  loop : Loop ι
  stop : Stop ι
  pending : List ι
  connections : List ι
  session : ι → Session

/-- The steps: of the accept loop, of the worker of a connection, of its reader or of a thread of
the application that closes it, and of `stop`. -/
inductive Act (ι : Type)
  | poll
  | ready
  /-- Nothing was there, or `accept_one` failed. -/
  | again
  | quit
  | accept (c : ι)
  | spawn
  | register (c : ι)
  | adopt (c : ι)
  | upgrade (c : ι)
  /-- TLS or the handshake fails. -/
  | fail (c : ι)
  /-- `on_connection` returns, having kept `on_close_` or not. -/
  | introduce (c : ι) (keep : Bool)
  | activate (c : ι)
  | add (c : ι)
  | finish (c : ι)
  /-- `close`, `fail_with_close` or `handle_close_frame` clears `is_open_`; the first two close the
  socket. -/
  | ends (c : ι) (socket : Bool)
  | onClose (c : ι)
  /-- A read fails: `is_open_` is cleared and the reader exits. -/
  | lost (c : ι)
  | stop
  | closeAcceptor
  | takePending
  | closeNext
  | takeActive
  | leave
  | joinLoop

namespace Act

variable {ι : Type}

/-- The step is one of `accept_loop`. -/
def ofLoop : Act ι → Bool
  | poll | ready | again | quit | accept _ | spawn => true
  | _ => false

/-- The step is one of the worker of a connection. -/
def ofWorker : Act ι → Bool
  | register _ | adopt _ | upgrade _ | fail _ | introduce _ _ | activate _ | add _ | finish _ =>
    true
  | _ => false

/-- The step is one of the reader of a connection, or of a thread that closes it. -/
def ofSession : Act ι → Bool
  | ends _ _ | onClose _ | lost _ => true
  | _ => false

/-- The step is one of `stop`. -/
def ofStop : Act ι → Bool
  | stop | closeAcceptor | takePending | closeNext | takeActive | leave | joinLoop => true
  | _ => false

lemma thread (a : Act ι) :
    a.ofLoop = true ∨ a.ofWorker = true ∨ a.ofSession = true ∨ a.ofStop = true := by
  cases a <;> simp [ofLoop, ofWorker, ofSession, ofStop]

end Act

namespace System

variable {ι : Type} [DecidableEq ι]

/-- A server that listens, with its accept loop started. -/
def started : System ι where
  loop := .top
  stop := .idle
  pending := []
  connections := []
  session := fun _ => ⟨.absent, false, false, true, 0⟩

/-- The system with another connection in place of `c`. -/
def put (s : System ι) (c : ι) (x : Session) : System ι :=
  { s with session := Function.update s.session c x }

/-- The system with the worker of `c` at another place. -/
def goTo (s : System ι) (c : ι) (phase : Phase) : System ι :=
  s.put c { s.session c with phase := phase }

/-- `socket().close()` without the `SSL_shutdown` of TLS: a connection that has not adopted its
descriptor has none to close. -/
def closeSocket (s : System ι) (c : ι) : System ι :=
  if (s.session c).phase = .registered then s
  else s.put c { s.session c with socketOpen := false }

/-- The step is possible. -/
def enabled (s : System ι) : Act ι → Bool
  | .poll => s.loop = .top ∧ s.stop.running
  | .ready => s.loop = .polling ∧ s.stop.running
  | .again => s.loop = .polling ∨ s.loop = .ready
  | .quit => s.loop = .top ∨ s.loop = .polling ∨ s.loop = .ready
  | .accept c => s.loop = .ready ∧ s.stop.listening ∧ (s.session c).phase = .absent
  | .spawn =>
      match s.loop with
      | .holding c => (s.session c).phase = .accepted
      | _ => false
  | .register c => (s.session c).phase = .spawned
  | .adopt c => (s.session c).phase = .registered
  | .upgrade c => (s.session c).phase = .adopted ∧ (s.session c).socketOpen
  | .fail c => (s.session c).phase = .adopted
  | .introduce c _ => (s.session c).phase = .upgraded
  | .activate c => (s.session c).phase = .introduced
  | .add c => (s.session c).phase = .activated
  | .finish c => (s.session c).phase = .leaving
  | .ends c _ => (s.session c).isOpen ∨ (s.session c).ending ≠ 0
  | .onClose c => (s.session c).ending ≠ 0
  | .lost c => (s.session c).isOpen ∨ (s.session c).ending ≠ 0
  | .stop => s.stop = .idle
  | .closeAcceptor => s.stop = .flagged
  | .takePending => s.stop = .deaf
  | .closeNext =>
      match s.stop with
      | .closingPending (_ :: _) => true
      | .closingActive (_ :: _) => true
      | _ => false
  | .takeActive => s.stop = .closingPending []
  | .leave => s.stop = .closingActive []
  | .joinLoop => s.stop = .left ∧ s.loop = .exited

/-- What the step does. -/
def next (s : System ι) : Act ι → System ι
  | .poll => { s with loop := .polling }
  | .ready => { s with loop := .ready }
  | .again => { s with loop := .top }
  | .quit => { s with loop := .exited }
  | .accept c =>
      { s.put c { s.session c with phase := .accepted, socketOpen := true } with
        loop := .holding c }
  | .spawn =>
      match s.loop with
      | .holding c => { s.goTo c .spawned with loop := .top }
      | _ => s
  | .register c => { s.goTo c .registered with pending := s.pending ++ [c] }
  | .adopt c => s.goTo c .adopted
  | .upgrade c => s.goTo c .upgraded
  | .fail c => s.goTo c .leaving
  | .introduce c keep => s.put c { s.session c with phase := .introduced, hooked := keep }
  | .activate c => s.put c { s.session c with phase := .activated, isOpen := true }
  | .add c => { s.goTo c .leaving with connections := s.connections.insert c }
  | .finish c => { s.goTo c .returned with pending := s.pending.filter (· ≠ c) }
  | .ends c socket =>
      s.put c { s.session c with
        isOpen := false
        socketOpen := (s.session c).socketOpen && !socket
        ending := (s.session c).ending + 1 }
  | .onClose c =>
      { s.put c { s.session c with ending := (s.session c).ending - 1 } with
        connections :=
          if (s.session c).hooked then s.connections.filter (· ≠ c) else s.connections }
  | .lost c => s.put c { s.session c with isOpen := false }
  | .stop => { s with stop := .flagged }
  | .closeAcceptor => { s with stop := .deaf }
  | .takePending => { s with stop := .closingPending s.pending, pending := [] }
  | .closeNext =>
      match s.stop with
      | .closingPending (c :: todo) => { s.closeSocket c with stop := .closingPending todo }
      | .closingActive (c :: todo) => { s.closeSocket c with stop := .closingActive todo }
      | _ => s
  | .takeActive => { s with stop := .closingActive s.connections }
  | .leave => { s with stop := .left }
  | .joinLoop => { s with stop := .joined }

/-- The steps of the system. -/
def step (s : System ι) (a : Act ι) : Option (System ι) :=
  if s.enabled a then some (s.next a) else none

lemma step_eq_some {s s' : System ι} {a : Act ι} (h : s.step a = some s') :
    s.enabled a = true ∧ s' = s.next a := by
  rw [step] at h
  split_ifs at h with hc
  exact ⟨hc, (Option.some.inj h).symm⟩

/-! ## Who is in `connections_` -/

/-- `on_connection` keeps the handler of `on_close`; `on_close` is called only after
`add_connection`; and no read fails on a connection that is open. -/
def Kept (s : System ι) : Act ι → Prop
  | .introduce _ keep => keep = true
  | .onClose c => (s.session c).phase = .leaving ∨ (s.session c).phase = .returned
  | .lost c => (s.session c).isOpen = false
  | _ => True

end System

/-- The phases in which the reader is not started yet. -/
def Phase.early : Phase → Bool
  | activated | leaving | returned => false
  | _ => true

/-- What holds of a connection, `listed` being whether it is in `connections_`. -/
structure Session.Fine (x : Session) (listed : Prop) : Prop where
  hooked : x.hooked = true
  early : x.phase.early = true → x.isOpen = false ∧ x.ending = 0
  ending : x.ending ≠ 0 → x.isOpen = false
  /-- Between `activate` and `add_connection`. -/
  activated : x.phase = .activated → x.isOpen = true ∨ x.ending ≠ 0
  member : listed → x.isOpen = true ∨ x.ending ≠ 0
  opened : x.isOpen = true → x.phase = .activated ∨ listed

namespace Session.Fine

variable {x : Session} {listed : Prop}

lemma goTo {phase : Phase} (h : x.Fine listed) (hearly : x.phase.early = true)
    (hphase : phase ≠ .activated) : Fine { x with phase := phase } listed := by
  obtain ⟨hopen, hending⟩ := h.early hearly
  exact ⟨h.hooked, fun _ => ⟨hopen, hending⟩, h.ending, fun hp => absurd hp hphase, h.member,
    fun ho => absurd (hopen.symm.trans ho) (by simp)⟩

lemma socket (h : x.Fine listed) (socket : Bool) : Fine { x with socketOpen := socket } listed :=
  ⟨h.hooked, h.early, h.ending, h.activated, h.member, h.opened⟩

lemma activate (h : x.Fine listed) (hearly : x.phase.early = true) :
    Fine { x with phase := .activated, isOpen := true } listed := by
  obtain ⟨-, hending⟩ := h.early hearly
  exact ⟨h.hooked, by simp [Phase.early], fun hne => absurd hending hne, fun _ => .inl rfl,
    fun _ => .inl rfl, fun _ => .inl rfl⟩

lemma add (h : x.Fine listed) (hphase : x.phase = .activated) :
    Fine { x with phase := .leaving } True :=
  ⟨h.hooked, by simp [Phase.early], h.ending, by simp, fun _ => h.activated hphase,
    fun _ => .inr trivial⟩

lemma finish (h : x.Fine listed) (hphase : x.phase = .leaving) :
    Fine { x with phase := .returned } listed :=
  ⟨h.hooked, by simp [Phase.early], h.ending, by simp, h.member,
    fun ho => .inr ((h.opened ho).resolve_left (by simp [hphase]))⟩

lemma ends (h : x.Fine listed) (hopen : x.isOpen = true ∨ x.ending ≠ 0) (socket : Bool) :
    Fine { x with isOpen := false, socketOpen := socket, ending := x.ending + 1 } listed := by
  refine ⟨h.hooked, fun hearly => ?_, fun _ => rfl, fun _ => .inr (Nat.succ_ne_zero _),
    fun _ => .inr (Nat.succ_ne_zero _), by simp⟩
  obtain ⟨hclosed, hending⟩ := h.early hearly
  rcases hopen with hopen | hopen
  · simp [hclosed] at hopen
  · exact absurd hending hopen

lemma onClose (h : x.Fine listed) (hending : x.ending ≠ 0)
    (hphase : x.phase = .leaving ∨ x.phase = .returned) :
    Fine { x with ending := x.ending - 1 } False := by
  have hclosed := h.ending hending
  refine ⟨h.hooked, ?_, fun _ => hclosed, ?_, False.elim, fun ho => ?_⟩
  · rcases hphase with hp | hp <;> simp [hp, Phase.early]
  · rcases hphase with hp | hp <;> simp [hp]
  · exact absurd (hclosed.symm.trans ho) (by simp)

end Session.Fine

namespace System

variable {ι : Type} [DecidableEq ι]

/-- What holds in every state of a run that keeps the condition. -/
def Exact (s : System ι) : Prop := ∀ c, (s.session c).Fine (c ∈ s.connections)

/-- One connection changes, and the others keep their place in `connections_`. -/
lemma Exact.put {s s' : System ι} {c : ι} {x : Session} (h : s.Exact)
    (hsession : s'.session = Function.update s.session c x)
    (hx : x.Fine (c ∈ s'.connections))
    (hothers : ∀ d, d ≠ c → (d ∈ s'.connections ↔ d ∈ s.connections)) : s'.Exact := by
  intro d
  rw [hsession]
  rcases eq_or_ne d c with rfl | hne
  · rw [Function.update_self]
    exact hx
  · rw [Function.update_of_ne hne, hothers d hne]
    exact h d

lemma Exact.closeSocket {s : System ι} (h : s.Exact) (c : ι) : (s.closeSocket c).Exact := by
  rw [System.closeSocket]
  split
  · exact h
  · exact h.put rfl ((h c).socket false) fun _ _ => Iff.rfl

section Exact

variable {s : System ι} {a : Act ι}

/-- `accept_loop`: a connection that is not registered anywhere yet. -/
lemma Exact.ofLoop (h : s.Exact) (ha : a.ofLoop = true) (hen : s.enabled a = true) :
    (s.next a).Exact := by
  cases a with
  | poll | ready | again | quit => exact h
  | accept c =>
      simp only [enabled, decide_eq_true_eq] at hen
      exact h.put rfl (((h c).goTo (by rw [hen.2.2]; rfl) (by simp)).socket true) fun _ _ => Iff.rfl
  | spawn =>
      cases hloop : s.loop with
      | holding c =>
          simp only [enabled, hloop, decide_eq_true_eq] at hen
          simp only [next, hloop]
          exact h.put rfl ((h c).goTo (by rw [hen]; rfl) (by simp)) fun _ _ => Iff.rfl
      | _ => simp [enabled, hloop] at hen
  | _ => simp [Act.ofLoop] at ha

/-- `add_connection`.  The reader may have ended the session by now, but it has not called
`on_close`. -/
lemma Exact.add {c : ι} (h : s.Exact) (hphase : (s.session c).phase = .activated) :
    (s.next (.add c)).Exact := by
  have hmem : (c ∈ s.connections.insert c) = True := by simp
  refine h.put rfl ?_ fun d hne => ?_
  · show Session.Fine _ (c ∈ s.connections.insert c)
    rw [hmem]
    exact (h c).add hphase
  · show d ∈ s.connections.insert c ↔ d ∈ s.connections
    simp [hne]

/-- The worker of a connection. -/
lemma Exact.ofWorker (h : s.Exact) (ha : a.ofWorker = true) (hkept : s.Kept a)
    (hen : s.enabled a = true) : (s.next a).Exact := by
  cases a with
  | register c =>
      simp only [enabled, decide_eq_true_eq] at hen
      exact h.put rfl ((h c).goTo (by rw [hen]; rfl) (by simp)) fun _ _ => Iff.rfl
  | adopt c =>
      simp only [enabled, decide_eq_true_eq] at hen
      exact h.put rfl ((h c).goTo (by rw [hen]; rfl) (by simp)) fun _ _ => Iff.rfl
  | upgrade c =>
      simp only [enabled, decide_eq_true_eq] at hen
      exact h.put rfl ((h c).goTo (by rw [hen.1]; rfl) (by simp)) fun _ _ => Iff.rfl
  | fail c =>
      simp only [enabled, decide_eq_true_eq] at hen
      exact h.put rfl ((h c).goTo (by rw [hen]; rfl) (by simp)) fun _ _ => Iff.rfl
  | introduce c keep =>
      simp only [enabled, decide_eq_true_eq] at hen
      have hgone : Session.Fine { s.session c with phase := .introduced } (c ∈ s.connections) :=
        (h c).goTo (by rw [hen]; rfl) (by simp)
      exact h.put rfl ⟨hkept, hgone.early, hgone.ending, hgone.activated, hgone.member,
        hgone.opened⟩ fun _ _ => Iff.rfl
  | activate c =>
      simp only [enabled, decide_eq_true_eq] at hen
      exact h.put rfl ((h c).activate (by rw [hen]; rfl)) fun _ _ => Iff.rfl
  | add c =>
      simp only [enabled, decide_eq_true_eq] at hen
      exact h.add hen
  | finish c =>
      simp only [enabled, decide_eq_true_eq] at hen
      exact h.put rfl ((h c).finish hen) fun _ _ => Iff.rfl
  | _ => simp [Act.ofWorker] at ha

/-- `on_close` removes the connection, as the handler is the one the server has set. -/
lemma Exact.onClose {c : ι} (h : s.Exact) (hkept : s.Kept (.onClose c))
    (hending : (s.session c).ending ≠ 0) : (s.next (.onClose c)).Exact := by
  have hconnections : (s.next (.onClose c)).connections = s.connections.filter (· ≠ c) := by
    simp only [next, (h c).hooked, if_true]
  refine h.put rfl ?_ fun d hne => ?_
  · have hmem : (c ∈ s.connections.filter (· ≠ c)) = False := by simp
    rw [hconnections, hmem]
    exact (h c).onClose hending hkept
  · rw [hconnections]
    simp [hne]

/-- The end of a session. -/
lemma Exact.ofSession (h : s.Exact) (ha : a.ofSession = true) (hkept : s.Kept a)
    (hen : s.enabled a = true) : (s.next a).Exact := by
  cases a with
  | ends c socket =>
      simp only [enabled, decide_eq_true_eq] at hen
      exact h.put rfl ((h c).ends hen _) fun _ _ => Iff.rfl
  | onClose c =>
      simp only [enabled, decide_eq_true_eq] at hen
      exact h.onClose hkept hen
  | lost c =>
      -- the failed read finds the session closed, and so it changes nothing
      have hsame : { s.session c with isOpen := false } = s.session c := by
        have hclosed : (s.session c).isOpen = false := hkept
        rw [← hclosed]
      refine h.put rfl ?_ fun _ _ => Iff.rfl
      rw [hsame]
      exact h c
  | _ => simp [Act.ofSession] at ha

/-- `stop` closes sockets, which are none of the registry's business. -/
lemma Exact.ofStop (h : s.Exact) (ha : a.ofStop = true) : (s.next a).Exact := by
  cases a with
  | stop | closeAcceptor | takePending | takeActive | leave | joinLoop => exact h
  | closeNext =>
      simp only [next]
      split
      · exact h.closeSocket _
      · exact h.closeSocket _
      · exact h
  | _ => simp [Act.ofStop] at ha

/-- **One step** keeps it. -/
lemma Exact.step {s' : System ι} (h : s.Exact) (hkept : s.Kept a) (hstep : s.step a = some s') :
    s'.Exact := by
  obtain ⟨hen, rfl⟩ := step_eq_some hstep
  rcases a.thread with ha | ha | ha | ha
  · exact h.ofLoop ha hen
  · exact h.ofWorker ha hkept hen
  · exact h.ofSession ha hkept hen
  · exact h.ofStop ha

end Exact

/-- **`connections_` is exact.**  In every run in which `on_close` is kept, comes only after
`add_connection`, and no read fails on an open connection: a connection whose worker has returned is
in `connections_` exactly if it is open, unless it is just being closed and `on_close` is to
come. -/
theorem registry_exact (s : System ι) (hrun : Runs step Kept started s) (c : ι)
    (hreturned : (s.session c).phase = .returned) (hending : (s.session c).ending = 0) :
    c ∈ s.connections ↔ (s.session c).isOpen = true := by
  have hexact : s.Exact := by
    refine hrun.invariant ?_ fun s a t h hC hstep => h.step hC hstep
    intro c
    exact ⟨rfl, fun _ => ⟨rfl, rfl⟩, fun _ => rfl, by simp [started], by simp [started],
      by simp [started]⟩
  constructor
  · intro hmem
    exact ((hexact c).member hmem).resolve_right fun hne => hne hending
  · intro hopen
    exact ((hexact c).opened hopen).resolve_left (by simp [hreturned])

instance (s : System ι) (a : Act ι) : Decidable (s.Kept a) := by
  cases a <;> unfold Kept <;> infer_instance

/-- What a run has come to for one connection. -/
def summary (s : System Unit) : Stop Unit × List Unit × Session :=
  (s.stop, s.connections, s.session ())

end System

/-- A connection is accepted, and its worker goes through `handle_accept`. -/
def accepted : List (Act Unit) :=
  [.poll, .ready, .accept (), .spawn, .register (), .adopt (), .upgrade (), .introduce () true,
    .activate (), .add (), .finish ()]

/-- The peer closes, and the connection is removed. -/
theorem registry_exact_closed :
    ∃ s : System Unit,
      play System.step .started (accepted ++ [.ends () false, .onClose ()]) = some s ∧
        (s.session ()).isOpen = false ∧ () ∉ s.connections := by
  have hplay : (play System.step .started (accepted ++ [.ends () false, .onClose ()])).map
      (fun s => s.session ()) = some ⟨.returned, true, false, true, 0⟩ := by
    decide
  obtain ⟨s, hs, hsession⟩ := Option.map_eq_some_iff.mp hplay
  have hexact := System.registry_exact s
    (runs_of_play (D := fun s a => decide (s.Kept a)) _ (fun s a h => of_decide_eq_true h) _ hs
      (by decide)) () (by rw [hsession]) (by rw [hsession])
  have hclosed : (s.session ()).isOpen = false := by rw [hsession]
  refine ⟨s, hs, hclosed, fun hmem => ?_⟩
  rw [hexact, hclosed] at hmem
  simp at hmem

/-- **A session that ends with a failed read stays in `connections_`.** -/
theorem registry_stale :
    ¬∀ (acts : List (Act Unit)) (s : System Unit), play System.step .started acts = some s →
      s.stop.running = true → ∀ c, (s.session c).phase = .returned → (s.session c).ending = 0 →
        (c ∈ s.connections ↔ (s.session c).isOpen = true) := by
  intro h
  have hplay : (play System.step .started (accepted ++ [.lost ()])).map System.summary =
      some (.idle, [()], ⟨.returned, true, false, true, 0⟩) := by
    decide
  obtain ⟨s, hs, hsummary⟩ := Option.map_eq_some_iff.mp hplay
  simp only [System.summary, Prod.mk.injEq] at hsummary
  obtain ⟨hstop, hconnections, hsession⟩ := hsummary
  have hexact := h _ s hs (by rw [hstop]; rfl) () (by rw [hsession]) (by rw [hsession])
  rw [hconnections, hsession] at hexact
  simp at hexact

/-! ## Which sockets `stop` reaches -/

namespace Phase

/-- The descriptor is accepted, and its connection is not registered yet. -/
def unregistered : Phase → Bool
  | accepted | spawned => true
  | _ => false

/-- The connection is registered as pending. -/
def isPending : Phase → Bool
  | registered | adopted | upgraded | introduced | activated | leaving => true
  | _ => false

end Phase

namespace System

variable {ι : Type} [DecidableEq ι]

/-- When `stop` takes the pending connections, every accepted descriptor is registered; and a
pending connection has adopted its descriptor when its socket is closed. -/
def Timely (s : System ι) : Act ι → Prop
  | .takePending => ∀ c, (s.session c).phase.unregistered = false
  | .closeNext => ∀ c ∈ s.stop.nextPending, (s.session c).phase ≠ .registered
  | _ => True

end System

/-- How a connection is reached by `stop`, `listed` being whether it is in `pending_handshakes_`. -/
def Covered {ι : Type} (stop : Stop ι) (c : ι) (x : Session) (listed : Prop) : Prop :=
  match stop with
  | .idle | .flagged | .deaf => x.phase.isPending = true → listed
  | .closingPending todo => x.phase.unregistered = false ∧
      (x.phase.isPending = true → c ∈ todo ∨ x.socketOpen = false)
  | .closingActive _ | .left | .joined => x.phase.unregistered = false ∧
      (x.phase.isPending = true → x.socketOpen = false)

/-- A step that registers no connection and opens no socket. -/
lemma Covered.mono {ι : Type} {stop : Stop ι} {c : ι} {x x' : Session} {listed listed' : Prop}
    (h : Covered stop c x listed)
    (hunregistered : x.phase.unregistered = false → x'.phase.unregistered = false)
    (hpending : x'.phase.isPending = true → x.phase.isPending = true)
    (hsocket : x.socketOpen = false → x'.socketOpen = false) (hlisted : listed → listed') :
    Covered stop c x' listed' := by
  unfold Covered at h ⊢
  split at h
  · exact fun hp => hlisted (h (hpending hp))
  · exact fun hp => hlisted (h (hpending hp))
  · exact fun hp => hlisted (h (hpending hp))
  · exact ⟨hunregistered h.1, fun hp => (h.2 (hpending hp)).imp id hsocket⟩
  · exact ⟨hunregistered h.1, fun hp => hsocket (h.2 (hpending hp))⟩
  · exact ⟨hunregistered h.1, fun hp => hsocket (h.2 (hpending hp))⟩
  · exact ⟨hunregistered h.1, fun hp => hsocket (h.2 (hpending hp))⟩

/-- `register_pending`, which can only come before `stop` takes the pending connections. -/
lemma Covered.register {ι : Type} {stop : Stop ι} {c : ι} {x x' : Session} {listed listed' : Prop}
    (h : Covered stop c x listed) (hphase : x.phase.unregistered = true) (hlisted : listed') :
    Covered stop c x' listed' := by
  unfold Covered at h ⊢
  split at h
  · exact fun _ => hlisted
  · exact fun _ => hlisted
  · exact fun _ => hlisted
  · simp [hphase] at h
  · simp [hphase] at h
  · simp [hphase] at h
  · simp [hphase] at h

/-- `accept_one`, which can only come before the acceptor is closed. -/
lemma Covered.accept {ι : Type} {stop : Stop ι} {c : ι} {x x' : Session} {listed : Prop}
    (h : Covered stop c x listed) (hlistening : stop.listening = true)
    (hphase : x'.phase = .accepted) : Covered stop c x' listed := by
  unfold Covered at h ⊢
  split at h
  · simp [hphase, Phase.isPending]
  · simp [hphase, Phase.isPending]
  all_goals simp [Stop.listening] at hlistening

lemma covered_of_returned {ι : Type} (stop : Stop ι) (c : ι) {x : Session} (listed : Prop)
    (hphase : x.phase = .returned) : Covered stop c x listed := by
  unfold Covered
  split <;> simp [hphase, Phase.isPending, Phase.unregistered]

namespace System

variable {ι : Type} [DecidableEq ι]

/-- What holds in every state of a timely run. -/
def Reaching (s : System ι) : Prop := ∀ c, Covered s.stop c (s.session c) (c ∈ s.pending)

/-- One connection changes, and the others keep their place in `pending_handshakes_`. -/
lemma Reaching.put {s s' : System ι} {c : ι} {x : Session} (h : s.Reaching)
    (hstop : s'.stop = s.stop) (hsession : s'.session = Function.update s.session c x)
    (hx : Covered s.stop c x (c ∈ s'.pending))
    (hothers : ∀ d, d ≠ c → d ∈ s.pending → d ∈ s'.pending) : s'.Reaching := by
  intro d
  rw [hsession, hstop]
  rcases eq_or_ne d c with rfl | hne
  · rw [Function.update_self]
    exact hx
  · rw [Function.update_of_ne hne]
    exact (h d).mono id id id (hothers d hne)

lemma Reaching.moved {s s' : System ι} {c : ι} {x : Session} (h : s.Reaching)
    (hstop : s'.stop = s.stop) (hsession : s'.session = Function.update s.session c x)
    (hpending : s'.pending = s.pending)
    (hunregistered : (s.session c).phase.unregistered = false → x.phase.unregistered = false)
    (hphase : x.phase.isPending = true → (s.session c).phase.isPending = true)
    (hsocket : (s.session c).socketOpen = false → x.socketOpen = false) : s'.Reaching := by
  refine h.put hstop hsession ?_ fun d _ hd => hpending ▸ hd
  rw [hpending]
  exact (h c).mono hunregistered hphase hsocket id

lemma Reaching.closeSocket {s : System ι} (h : s.Reaching) (c : ι) :
    (s.closeSocket c).Reaching := by
  rw [System.closeSocket]
  split
  · exact h
  · exact h.moved rfl rfl rfl id id fun _ => rfl

/-- `stop` closes the next socket. -/
lemma Reaching.closeNext {s : System ι} (h : s.Reaching) (htimely : s.Timely .closeNext) :
    (s.next .closeNext).Reaching := by
  simp only [next]
  split
  · rename_i c todo hstop
    have hphase : (s.session c).phase ≠ .registered := htimely c (by rw [hstop]; rfl)
    intro d
    have hd := h d
    rw [hstop] at hd
    rw [System.closeSocket, if_neg hphase]
    rcases eq_or_ne d c with rfl | hne
    · simp only [System.put, Function.update_self]
      exact ⟨hd.1, fun _ => .inr rfl⟩
    · simp only [System.put, Function.update_of_ne hne]
      refine ⟨hd.1, fun hp => (hd.2 hp).imp (fun hmem => ?_) id⟩
      exact (List.mem_cons.mp hmem).resolve_left hne
  · rename_i c todo hstop
    intro d
    have hd := h.closeSocket c d
    have hsame : (s.closeSocket c).stop = .closingActive (c :: todo) := by
      rw [System.closeSocket, ← hstop]
      split <;> rfl
    rw [hsame] at hd
    exact hd
  · exact h

section Reaching

variable {s : System ι} {a : Act ι}

/-- `accept_loop`. -/
lemma Reaching.ofLoop (h : s.Reaching) (ha : a.ofLoop = true) (hen : s.enabled a = true) :
    (s.next a).Reaching := by
  cases a with
  | poll | ready | again | quit => exact h
  | accept c =>
      simp only [enabled, decide_eq_true_eq] at hen
      refine h.put rfl rfl ?_ fun _ _ hd => hd
      exact (h c).accept hen.2.1 rfl
  | spawn =>
      cases hloop : s.loop with
      | holding c =>
          simp only [enabled, hloop, decide_eq_true_eq] at hen
          simp only [next, hloop]
          exact h.moved rfl rfl rfl (by simp [hen, Phase.unregistered])
            (by simp [Phase.isPending]) id
      | _ => simp [enabled, hloop] at hen
  | _ => simp [Act.ofLoop] at ha

lemma Reaching.goes {s' : System ι} {c : ι} {x : Session} {now : Phase} (h : s.Reaching)
    (hstop : s'.stop = s.stop) (hsession : s'.session = Function.update s.session c x)
    (hpending : s'.pending = s.pending) (hnow : (s.session c).phase = now)
    (hphase : now.isPending = true) (hnext : x.phase.unregistered = false)
    (hsocket : (s.session c).socketOpen = false → x.socketOpen = false) : s'.Reaching :=
  h.moved hstop hsession hpending (fun _ => hnext) (fun _ => hnow ▸ hphase) hsocket

/-- The worker of a connection. -/
lemma Reaching.ofWorker (h : s.Reaching) (ha : a.ofWorker = true) (hen : s.enabled a = true) :
    (s.next a).Reaching := by
  cases a with
  | register c =>
      simp only [enabled, decide_eq_true_eq] at hen
      refine h.put rfl rfl ((h c).register (by rw [hen]; rfl) ?_) fun d _ hd => ?_
      · exact List.mem_append_right _ List.mem_cons_self
      · exact List.mem_append_left _ hd
  | adopt c => exact h.goes rfl rfl rfl (of_decide_eq_true hen) rfl rfl id
  | upgrade c => exact h.goes rfl rfl rfl (of_decide_eq_true hen).1 rfl rfl id
  | fail c => exact h.goes rfl rfl rfl (of_decide_eq_true hen) rfl rfl id
  | introduce c keep => exact h.goes rfl rfl rfl (of_decide_eq_true hen) rfl rfl id
  | activate c => exact h.goes rfl rfl rfl (of_decide_eq_true hen) rfl rfl id
  | add c => exact h.goes rfl rfl rfl (of_decide_eq_true hen) rfl rfl id
  | finish c =>
      refine h.put rfl rfl (covered_of_returned _ c _ rfl) fun d hne hd => ?_
      exact List.mem_filter.mpr ⟨hd, by simpa using hne⟩
  | _ => simp [Act.ofWorker] at ha

lemma Reaching.ofSession (h : s.Reaching) (ha : a.ofSession = true) : (s.next a).Reaching := by
  cases a with
  | ends c socket => exact h.moved rfl rfl rfl id id fun hclosed => by simp [hclosed]
  | onClose c => exact h.moved rfl rfl rfl id id id
  | lost c => exact h.moved rfl rfl rfl id id id
  | _ => simp [Act.ofSession] at ha

omit [DecidableEq ι] in
lemma Reaching.stopped {now stop : Stop ι} {pending : List ι} (h : s.Reaching)
    (hnow : s.stop = now) (hcovered : ∀ c, Covered now c (s.session c) (c ∈ s.pending) →
      Covered stop c (s.session c) (c ∈ pending)) :
    Reaching { s with stop := stop, pending := pending } := by
  subst hnow
  exact fun c => hcovered c (h c)

/-- `stop`. -/
lemma Reaching.ofStop (h : s.Reaching) (ha : a.ofStop = true) (htimely : s.Timely a)
    (hen : s.enabled a = true) : (s.next a).Reaching := by
  cases a with
  | stop => exact h.stopped (of_decide_eq_true hen) fun _ hc => hc
  | closeAcceptor => exact h.stopped (of_decide_eq_true hen) fun _ hc => hc
  | takePending =>
      -- all that is pending is on the list that `stop` takes, and nothing is to be registered
      exact h.stopped (of_decide_eq_true hen) fun c hc => ⟨htimely c, fun hp => .inl (hc hp)⟩
  | closeNext => exact h.closeNext htimely
  | takeActive =>
      -- the list has been worked off, so the sockets are closed
      exact h.stopped (of_decide_eq_true hen) fun c hc =>
        ⟨hc.1, fun hp => (hc.2 hp).resolve_left List.not_mem_nil⟩
  | leave => exact h.stopped (of_decide_eq_true hen) fun _ hc => hc
  | joinLoop => exact h.stopped (of_decide_eq_true hen).1 fun _ hc => hc
  | _ => simp [Act.ofStop] at ha

/-- **One step** keeps it. -/
lemma Reaching.step {s' : System ι} (h : s.Reaching) (htimely : s.Timely a)
    (hstep : s.step a = some s') : s'.Reaching := by
  obtain ⟨hen, rfl⟩ := step_eq_some hstep
  rcases a.thread with ha | ha | ha | ha
  · exact h.ofLoop ha hen
  · exact h.ofWorker ha hen
  · exact h.ofSession ha
  · exact h.ofStop ha htimely hen

end Reaching

/-- **`stop` reaches every connection.**  In every timely run, once `stop` has left
`shutdown_all_sockets` and the accept thread is joined, the socket of every connection that was ever
accepted is closed, or its worker has returned. -/
theorem stop_reaches (s : System ι) (hrun : Runs step Timely started s) (hjoined : s.stop = .joined)
    (c : ι) (haccepted : (s.session c).phase ≠ .absent) :
    (s.session c).socketOpen = false ∨ (s.session c).phase = .returned := by
  have hreaching : s.Reaching := by
    refine hrun.invariant ?_ fun s a t h hC hstep => h.step hC hstep
    intro c hpending
    simp [started, Phase.isPending] at hpending
  have hc := hreaching c
  rw [hjoined] at hc
  obtain ⟨hregistered, hclosed⟩ := hc
  cases hphase : (s.session c).phase with
  | absent => exact absurd hphase haccepted
  | accepted => simp [hphase, Phase.unregistered] at hregistered
  | spawned => simp [hphase, Phase.unregistered] at hregistered
  | returned => exact .inr rfl
  | _ => exact .inl (hclosed (by rw [hphase]; rfl))

instance [Fintype ι] (s : System ι) (a : Act ι) : Decidable (s.Timely a) := by
  cases a <;> unfold Timely <;> infer_instance

end System

/-- A worker is in the handshake when `stop` is called; the read fails, and it returns. -/
def stoppedInHandshake : List (Act Unit) :=
  [.poll, .ready, .accept (), .spawn, .register (), .adopt (), .stop, .quit, .closeAcceptor,
    .takePending, .closeNext, .takeActive, .leave, .joinLoop]

theorem stop_reaches_handshake :
    ∃ s : System Unit, play System.step .started stoppedInHandshake = some s ∧
      s.stop = .joined ∧ (s.session ()).phase = .adopted ∧ (s.session ()).socketOpen = false := by
  have hplay : (play System.step .started stoppedInHandshake).map System.summary =
      some (.joined, [], ⟨.adopted, false, false, true, 0⟩) := by
    decide
  obtain ⟨s, hs, hsummary⟩ := Option.map_eq_some_iff.mp hplay
  simp only [System.summary, Prod.mk.injEq] at hsummary
  obtain ⟨hstop, -, hsession⟩ := hsummary
  have hreaches := System.stop_reaches s
    (runs_of_play (D := fun s a => decide (s.Timely a)) _ (fun s a h => of_decide_eq_true h) _ hs
      (by decide)) hstop () (by rw [hsession]; simp)
  exact ⟨s, hs, hstop, by rw [hsession], hreaches.resolve_right (by rw [hsession]; simp)⟩

/-- `stop` takes the pending connections while a worker has not registered its own. -/
def stoppedTooEarly : List (Act Unit) :=
  [.poll, .ready, .accept (), .spawn, .stop, .quit, .closeAcceptor, .takePending, .takeActive,
    .leave, .joinLoop, .register (), .adopt ()]

/-- **A worker that `stop` does not reach**: it goes on to read from a socket that nobody closes. -/
theorem stop_misses :
    ¬∀ (acts : List (Act Unit)) (s : System Unit), play System.step .started acts = some s →
      s.stop = .joined → ∀ c, (s.session c).phase ≠ .absent →
        (s.session c).socketOpen = false ∨ (s.session c).phase = .returned := by
  intro h
  have hplay : (play System.step .started stoppedTooEarly).map System.summary =
      some (.joined, [], ⟨.adopted, true, false, true, 0⟩) := by
    decide
  obtain ⟨s, hs, hsummary⟩ := Option.map_eq_some_iff.mp hplay
  simp only [System.summary, Prod.mk.injEq] at hsummary
  obtain ⟨hstop, -, hsession⟩ := hsummary
  have hreached := h _ s hs hstop () (by rw [hsession]; simp)
  rw [hsession] at hreached
  simp at hreached

end Wscpp.Cpp.Server
