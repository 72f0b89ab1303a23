import Wscpp.Cpp.Server
import Wscpp.Lib.Waiting
import Mathlib.Algebra.Order.BigOperators.Group.List
import Mathlib.Algebra.Order.Ring.Nat

/-!
# `stop`, to its end

`Wscpp.Cpp.Server` follows `stop` to the join of the accept thread.  Behind it come `join_workers`,
which takes the threads of `workers_` and joins them one after the other, and the clearing of
`connections_`.  `Whole` is the server with these; `accept_loop` pushes a worker that it has created
before it does anything else.

`stop` waits for the accept thread and for every worker, and a worker may wait for a peer that does
not finish its handshake: for bytes of it, or for it to take what is written.  Closing the socket
ends either wait (TLS, whose shutdown writes itself, is left out, as in `Wscpp.Cpp.Server`).  In the
runs in which `stop` reaches every connection (`System.stop_reaches`) it does not wait in vain: all
these threads come to an end, and when none of them can go on without a peer, `stop` has returned
(`stop_returns`).  Once it has, and ever after,
the accept loop has ended, every worker has returned and nothing is pending or registered; and where
`connections_` is exact (`System.registry_exact`), no connection that is open has a socket that is
(`stop_clears`).
-/

namespace Wscpp.Cpp.Server

open Moves

/-! ## The system -/

/-- Where `stop` is behind the join of the accept thread. -/
inductive Joining (ι : Type)
  | before
  /-- `join_workers` has taken the workers, and has these left to join. -/
  | waiting (todo : List ι)
  /-- `connections_` is cleared, and `stop` has returned. -/
  | returned
  deriving DecidableEq, Repr

/-- The workers left to join. -/
def Joining.todo {ι : Type} : Joining ι → List ι
  | waiting todo => todo
  | _ => []

/-- `server::impl` with its workers. -/
structure Whole (ι : Type) where
  sys : System ι
  /-- The worker that `accept_loop` has created and has yet to push. -/
  fresh : Option ι
  /-- `workers_`. -/
  workers : List ι
  joining : Joining ι

/-- The steps. -/
inductive Deed (ι : Type)
  | act (a : Act ι)
  /-- `workers_.push_back`. -/
  | push
  | takeWorkers
  | joinNext
  /-- `connections_.clear`. -/
  | clear

/-- The connection has a worker that has not returned. -/
def Phase.manned : Phase → Bool
  | absent | accepted | returned => false
  | _ => true

namespace Whole

variable {ι : Type} [DecidableEq ι]

/-- A server that listens, with its accept loop started. -/
def started : Whole ι where
  sys := .started
  fresh := none
  workers := []
  joining := .before

/-- The worker to be pushed after the step. -/
def created (w : Whole ι) : Act ι → Option ι
  | .spawn =>
      match w.sys.loop with
      | .holding c => some c
      | _ => none
  | _ => w.fresh

/-- The steps of the system. -/
def step (w : Whole ι) : Deed ι → Option (Whole ι)
  | .act a =>
      if a.ofLoop && w.fresh.isSome then none
      else (w.sys.step a).map fun sys => { w with sys := sys, fresh := w.created a }
  | .push => w.fresh.map fun c => { w with fresh := none, workers := w.workers ++ [c] }
  | .takeWorkers =>
      if w.sys.stop = .joined ∧ w.joining = .before then
        some { w with workers := [], joining := .waiting w.workers }
      else none
  | .joinNext =>
      match w.joining with
      | .waiting (c :: todo) =>
          if (w.sys.session c).phase = .returned then some { w with joining := .waiting todo }
          else none
      | _ => none
  | .clear =>
      if w.joining = .waiting [] then
        some { w with sys := { w.sys with connections := [] }, joining := .returned }
      else none

/-- What a step is, and when it is possible. -/
inductive Stepped (w : Whole ι) : Deed ι → Whole ι → Prop
  | act {a : Act ι} (hfree : a.ofLoop = true → w.fresh = none) (hen : w.sys.enabled a = true) :
      Stepped w (.act a) { w with sys := w.sys.next a, fresh := w.created a }
  | push {c : ι} (hfresh : w.fresh = some c) :
      Stepped w .push { w with fresh := none, workers := w.workers ++ [c] }
  | takeWorkers (hstop : w.sys.stop = .joined) (hjoining : w.joining = .before) :
      Stepped w .takeWorkers { w with workers := [], joining := .waiting w.workers }
  | joinNext {c : ι} {todo : List ι} (hjoining : w.joining = .waiting (c :: todo))
      (hreturned : (w.sys.session c).phase = .returned) :
      Stepped w .joinNext { w with joining := .waiting todo }
  | clear (hjoining : w.joining = .waiting []) :
      Stepped w .clear { w with sys := { w.sys with connections := [] }, joining := .returned }

lemma stepped_of_step {w w' : Whole ι} {d : Deed ι} (h : w.step d = some w') : Stepped w d w' := by
  cases d with
  | act a =>
      rw [step] at h
      split_ifs at h with hbusy
      obtain ⟨sys, hsys, rfl⟩ := Option.map_eq_some_iff.mp h
      obtain ⟨hen, rfl⟩ := System.step_eq_some hsys
      refine .act (fun hloop => ?_) hen
      simpa [hloop] using hbusy
  | push =>
      obtain ⟨c, hfresh, rfl⟩ := Option.map_eq_some_iff.mp h
      exact .push hfresh
  | takeWorkers =>
      rw [step] at h
      split_ifs at h with hready
      obtain rfl := Option.some.inj h
      exact .takeWorkers hready.1 hready.2
  | joinNext =>
      rw [step] at h
      split at h
      · rename_i c todo hjoining
        split_ifs at h with hreturned
        obtain rfl := Option.some.inj h
        exact .joinNext hjoining hreturned
      · cases h
  | clear =>
      rw [step] at h
      split_ifs at h with hjoining
      obtain rfl := Option.some.inj h
      exact .clear hjoining

/-! ## Who works for whom -/

/-- The workers that are not joined yet, but for one that is about to be created. -/
def crew (w : Whole ι) : List ι := w.fresh.toList ++ w.workers ++ w.joining.todo

/-- What holds in every state of every run. -/
structure Manned (w : Whole ι) : Prop where
  crew : ∀ c, (w.sys.session c).phase = .absent ∨ (w.sys.session c).phase = .accepted ∨
    (w.sys.session c).phase = .returned ∨ c ∈ w.crew
  known : ∀ c ∈ w.crew, (w.sys.session c).phase ≠ .absent
  held : ∀ c, w.sys.loop = .holding c ↔ (w.sys.session c).phase = .accepted
  fresh : w.fresh ≠ none → w.sys.loop = .top
  joined : w.sys.stop = .joined → w.sys.loop = .exited
  before : w.joining ≠ .before → w.sys.stop = .joined ∧ w.workers = []
  listed : ∀ c ∈ w.sys.pending, (w.sys.session c).phase.isPending = true
  cleared : w.joining = .returned → w.sys.connections = []

variable {w w' : Whole ι} {c : ι} {x : Session}

omit [DecidableEq ι] in
/-- Behind `stop`, no worker is left. -/
lemma Manned.absent_or_returned (h : w.Manned) (hreturned : w.joining = .returned) (c : ι) :
    (w.sys.session c).phase = .absent ∨ (w.sys.session c).phase = .returned := by
  obtain ⟨hstop, hworkers⟩ := h.before (by simp [hreturned])
  have hexited := h.joined hstop
  have hfresh : w.fresh = none := by
    by_contra hne
    simp [h.fresh hne] at hexited
  rcases h.crew c with hp | hp | hp | hmem
  · exact .inl hp
  · rw [← h.held, hexited] at hp
    cases hp
  · exact .inr hp
  · simp [Whole.crew, hfresh, hworkers, hreturned, Joining.todo] at hmem

omit [DecidableEq ι] in
/-- Behind `stop`, `accept_loop` has no worker to push. -/
lemma Manned.fresh_none (h : w.Manned) (hjoining : w.joining ≠ .before) : w.fresh = none := by
  by_contra hne
  have htop := h.fresh hne
  rw [h.joined (h.before hjoining).1] at htop
  cases htop

/-- The worker of a connection moves on, or its session changes. -/
lemma Manned.moved (h : w.Manned) {sys : System ι} (hloop : sys.loop = w.sys.loop)
    (hstop : sys.stop = w.sys.stop) (hsession : sys.session = Function.update w.sys.session c x)
    (hphase : x.phase = (w.sys.session c).phase ∨
      ((w.sys.session c).phase.manned = true ∧ x.phase ≠ .accepted ∧ x.phase ≠ .absent))
    (hself : c ∈ sys.pending → x.phase.isPending = true)
    (hothers : ∀ d ∈ sys.pending, d ≠ c → d ∈ w.sys.pending)
    (hcleared : w.joining = .returned → sys.connections = []) : Manned { w with sys := sys } := by
  refine ⟨fun d => ?_, fun d hd => ?_, fun d => ?_, fun hf => hloop.trans (h.fresh hf),
    fun hs => hloop.trans (h.joined (hstop ▸ hs)), fun hj => ?_, fun d hd => ?_, hcleared⟩
  · show (sys.session d).phase = _ ∨ (sys.session d).phase = _ ∨ (sys.session d).phase = _ ∨ _
    rw [hsession]
    rcases eq_or_ne d c with rfl | hne
    · rw [Function.update_self]
      rcases hphase with hsame | ⟨hmanned, -⟩
      · rw [hsame]
        exact h.crew d
      · -- a worker that moves is one of the crew, and stays in it
        rcases h.crew d with hp | hp | hp | hmem
        · simp [hp, Phase.manned] at hmanned
        · simp [hp, Phase.manned] at hmanned
        · simp [hp, Phase.manned] at hmanned
        · exact .inr (.inr (.inr hmem))
    · rw [Function.update_of_ne hne]
      exact h.crew d
  · show (sys.session d).phase ≠ .absent
    rw [hsession]
    rcases eq_or_ne d c with rfl | hne
    · rw [Function.update_self]
      rcases hphase with hsame | ⟨-, -, hnot⟩
      · rw [hsame]
        exact h.known d hd
      · exact hnot
    · rw [Function.update_of_ne hne]
      exact h.known d hd
  · show sys.loop = .holding d ↔ (sys.session d).phase = .accepted
    rw [hsession, hloop, h.held]
    rcases eq_or_ne d c with rfl | hne
    · rw [Function.update_self]
      rcases hphase with hsame | ⟨hmanned, hnot, -⟩
      · rw [hsame]
      · refine ⟨fun hp => ?_, fun hp => absurd hp hnot⟩
        simp [hp, Phase.manned] at hmanned
    · rw [Function.update_of_ne hne]
  · exact ⟨hstop.trans (h.before hj).1, (h.before hj).2⟩
  · show (sys.session d).phase.isPending = true
    rw [hsession]
    rcases eq_or_ne d c with rfl | hne
    · rw [Function.update_self]
      exact hself hd
    · rw [Function.update_of_ne hne]
      exact h.listed d (hothers d hd hne)

omit [DecidableEq ι] in
lemma Manned.looped (h : w.Manned) {loop : Loop ι} (hnow : ∀ d, w.sys.loop ≠ .holding d)
    (hnext : ∀ d, loop ≠ .holding d) (hfresh : w.fresh = none)
    (hstop : w.sys.stop = .joined → loop = .exited) :
    Manned { w with sys := { w.sys with loop := loop } } := by
  refine ⟨h.crew, h.known, fun d => ?_, fun hf => absurd hfresh hf, hstop, h.before, h.listed,
    h.cleared⟩
  have hnot : (w.sys.session d).phase ≠ .accepted := fun hp => hnow d ((h.held d).mpr hp)
  exact ⟨fun hl => absurd hl (hnext d), fun hp => absurd hp hnot⟩

/-- `stop` moves on. -/
lemma Manned.stopped (h : w.Manned) {sys : System ι} (hloop : sys.loop = w.sys.loop)
    (hphase : ∀ d, (sys.session d).phase = (w.sys.session d).phase)
    (hpending : sys.pending = w.sys.pending ∨ sys.pending = [])
    (hjoined : sys.stop = .joined → w.sys.loop = .exited)
    (hnow : w.sys.stop ≠ .joined) : Manned { w with sys := sys } := by
  have hbefore : w.joining = .before := by
    by_contra hne
    exact hnow (h.before hne).1
  refine ⟨fun d => ?_, fun d hd => ?_, fun d => ?_, fun hf => hloop.trans (h.fresh hf),
    fun hs => hloop.trans (hjoined hs), fun hj => absurd hbefore hj, fun d hd => ?_,
    fun hr => ?_⟩
  · show (sys.session d).phase = _ ∨ (sys.session d).phase = _ ∨ (sys.session d).phase = _ ∨ _
    rw [hphase]
    exact h.crew d
  · show (sys.session d).phase ≠ .absent
    rw [hphase]
    exact h.known d hd
  · show sys.loop = .holding d ↔ (sys.session d).phase = .accepted
    rw [hphase, hloop]
    exact h.held d
  · show (sys.session d).phase.isPending = true
    rw [hphase]
    rcases hpending with hsame | hnil
    · exact h.listed d (hsame ▸ hd)
    · have hmem : d ∈ sys.pending := hd
      simp [hnil] at hmem
  · simp [hbefore] at hr

lemma phase_closeSocket (s : System ι) (c d : ι) :
    ((s.closeSocket c).session d).phase = (s.session d).phase := by
  rw [System.closeSocket]
  split
  · rfl
  · rcases eq_or_ne d c with rfl | hne
    · simp [System.put]
    · simp [System.put, Function.update_of_ne hne]

lemma loop_closeSocket (s : System ι) (c : ι) : (s.closeSocket c).loop = s.loop := by
  rw [System.closeSocket]
  split <;> rfl

lemma pending_closeSocket (s : System ι) (c : ι) : (s.closeSocket c).pending = s.pending := by
  rw [System.closeSocket]
  split <;> rfl

/-- The worker of a connection goes on to another place while the connection is pending. -/
lemma Manned.goes (h : w.Manned) {sys : System ι} (hloop : sys.loop = w.sys.loop)
    (hstop : sys.stop = w.sys.stop) (hsession : sys.session = Function.update w.sys.session c x)
    (hphase : (w.sys.session c).phase.manned = true) (hpending : x.phase.isPending = true)
    (hlisted : sys.pending = w.sys.pending)
    (hcleared : w.joining = .returned → sys.connections = []) : Manned { w with sys := sys } := by
  refine h.moved hloop hstop hsession (.inr ⟨hphase, ?_, ?_⟩) (fun _ => hpending)
    (fun d hd _ => hlisted ▸ hd) hcleared
  · intro hp
    simp [hp, Phase.isPending] at hpending
  · intro hp
    simp [hp, Phase.isPending] at hpending

/-- `accept_one` has given a descriptor to `accept_loop`, and it holds no other. -/
lemma Manned.accept (h : w.Manned) (hready : w.sys.loop = .ready)
    (habsent : (w.sys.session c).phase = .absent) (hfresh : w.fresh = none) :
    Manned { w with sys := w.sys.next (.accept c) } := by
  have hnone : ∀ d, (w.sys.session d).phase ≠ .accepted := by
    intro d hp
    rw [← h.held, hready] at hp
    cases hp
  have hsession : (w.sys.next (.accept c)).session = Function.update w.sys.session c
      { w.sys.session c with phase := .accepted, socketOpen := true } := rfl
  refine ⟨fun d => ?_, fun d hd => ?_, fun d => ?_, fun hf => absurd hfresh hf,
    fun hs => ?_, h.before, fun d hd => ?_, h.cleared⟩
  · simp only [hsession]
    rcases eq_or_ne d c with rfl | hne
    · simp
    · rw [Function.update_of_ne hne]
      exact h.crew d
  · simp only [hsession]
    rcases eq_or_ne d c with rfl | hne
    · simp
    · rw [Function.update_of_ne hne]
      exact h.known d hd
  · simp only [hsession]
    show Loop.holding c = .holding d ↔ _
    rcases eq_or_ne d c with rfl | hne
    · simp
    · rw [Function.update_of_ne hne]
      refine ⟨fun hl => ?_, fun hp => absurd hp (hnone d)⟩
      exact absurd (Loop.holding.inj hl).symm hne
  · -- the accept thread has ended where `stop` has joined it
    have hexited := h.joined hs
    simp [hready] at hexited
  · simp only [hsession]
    have hpending := h.listed d hd
    have hne : d ≠ c := by
      rintro rfl
      simp [habsent, Phase.isPending] at hpending
    rw [Function.update_of_ne hne]
    exact hpending

/-- With its worker created, a connection is one of the crew. -/
lemma mem_crew_created (hfresh : w.fresh = none) (hloop : w.sys.loop = .holding c) (d : ι) :
    d ∈ Whole.crew { w with sys := w.sys.next .spawn, fresh := w.created .spawn } ↔
      d = c ∨ d ∈ w.crew := by
  have hcreated : w.created .spawn = some c := by simp only [created, hloop]
  simp only [Whole.crew, hcreated, hfresh, List.mem_append, Option.toList_some, Option.toList_none,
    List.mem_singleton, List.not_mem_nil, false_or, or_assoc]

/-- `accept_loop` creates the worker of the connection it holds. -/
lemma Manned.spawn (h : w.Manned) (hloop : w.sys.loop = .holding c) (hfresh : w.fresh = none) :
    Manned { w with sys := w.sys.next .spawn, fresh := w.created .spawn } := by
  have haccepted := (h.held c).mp hloop
  have hnext : w.sys.next .spawn = { w.sys.goTo c .spawned with loop := .top } := by
    simp only [System.next, hloop]
  have hsession : (w.sys.next .spawn).session = Function.update w.sys.session c
      { w.sys.session c with phase := .spawned } := by rw [hnext]; rfl
  -- the accept thread is there, so `stop` has not joined it
  have hnot : w.sys.stop ≠ .joined := by
    intro hs
    have hexited := h.joined hs
    simp [hloop] at hexited
  have hcrew := mem_crew_created hfresh hloop
  refine ⟨fun d => ?_, fun d hd => ?_, fun d => ?_, fun _ => by rw [hnext], fun hs => ?_,
    fun hj => absurd (h.before hj).1 hnot, fun d hd => ?_, fun hr => ?_⟩
  · rw [hcrew]
    simp only [hsession]
    rcases eq_or_ne d c with rfl | hne
    · exact .inr (.inr (.inr (.inl rfl)))
    · rw [Function.update_of_ne hne]
      exact (h.crew d).imp id (.imp id (.imp id .inr))
  · rw [hcrew] at hd
    simp only [hsession]
    rcases eq_or_ne d c with rfl | hne
    · simp
    · rw [Function.update_of_ne hne]
      exact h.known d (hd.resolve_left hne)
  · simp only [hsession]
    rw [hnext]
    rcases eq_or_ne d c with rfl | hne
    · simp
    · rw [Function.update_of_ne hne, ← h.held, hloop]
      simp [hne.symm]
  · rw [hnext] at hs
    exact absurd hs hnot
  · simp only [hsession]
    rw [hnext] at hd
    have hpending := h.listed d hd
    have hne : d ≠ c := by
      rintro rfl
      simp [haccepted, Phase.isPending] at hpending
    rw [Function.update_of_ne hne]
    exact hpending
  · exact absurd (h.before (by simp [show w.joining = .returned from hr])).1 hnot

/-- `accept_loop`. -/
lemma Manned.ofLoop (h : w.Manned) {a : Act ι} (ha : a.ofLoop = true) (hfresh : w.fresh = none)
    (hen : w.sys.enabled a = true) :
    Manned { w with sys := w.sys.next a, fresh := w.created a } := by
  -- the accept thread has ended where `stop` has joined it
  have hrunning : w.sys.loop ≠ .exited → w.sys.stop ≠ .joined := fun hl hs => hl (h.joined hs)
  cases a with
  | poll =>
      simp only [System.enabled, decide_eq_true_eq] at hen
      refine h.looped (by simp [hen.1]) (by simp) hfresh fun hs => ?_
      exact absurd hs (hrunning (by simp [hen.1]))
  | ready =>
      simp only [System.enabled, decide_eq_true_eq] at hen
      refine h.looped (by simp [hen.1]) (by simp) hfresh fun hs => ?_
      exact absurd hs (hrunning (by simp [hen.1]))
  | again =>
      simp only [System.enabled, decide_eq_true_eq] at hen
      refine h.looped ?_ (by simp) hfresh fun hs => ?_
      · rcases hen with hl | hl <;> simp [hl]
      · exact absurd hs (hrunning (by rcases hen with hl | hl <;> simp [hl]))
  | quit =>
      simp only [System.enabled, decide_eq_true_eq] at hen
      refine h.looped ?_ (by simp) hfresh fun _ => rfl
      rcases hen with hl | hl | hl <;> simp [hl]
  | accept c =>
      simp only [System.enabled, decide_eq_true_eq] at hen
      exact h.accept hen.1 hen.2.2 hfresh
  | spawn =>
      cases hloop : w.sys.loop with
      | holding c => exact h.spawn hloop hfresh
      | _ => simp [System.enabled, hloop] at hen
  | _ => simp [Act.ofLoop] at ha

/-- The worker of a connection. -/
lemma Manned.ofWorker (h : w.Manned) {a : Act ι} (ha : a.ofWorker = true)
    (hen : w.sys.enabled a = true) :
    Manned { w with sys := w.sys.next a, fresh := w.created a } := by
  cases a with
  | register c =>
      simp only [System.enabled, decide_eq_true_eq] at hen
      refine h.moved rfl rfl rfl (.inr ⟨by rw [hen]; rfl, by simp, by simp⟩) (fun _ => rfl)
        (fun d hd hne => ?_) h.cleared
      exact (List.mem_append.mp hd).resolve_right (by simpa using hne)
  | adopt c =>
      simp only [System.enabled, decide_eq_true_eq] at hen
      exact h.goes rfl rfl rfl (by rw [hen]; rfl) rfl rfl h.cleared
  | upgrade c =>
      simp only [System.enabled, decide_eq_true_eq] at hen
      exact h.goes rfl rfl rfl (by rw [hen.1]; rfl) rfl rfl h.cleared
  | fail c =>
      simp only [System.enabled, decide_eq_true_eq] at hen
      exact h.goes rfl rfl rfl (by rw [hen]; rfl) rfl rfl h.cleared
  | introduce c keep =>
      simp only [System.enabled, decide_eq_true_eq] at hen
      exact h.goes rfl rfl rfl (by rw [hen]; rfl) rfl rfl h.cleared
  | activate c =>
      simp only [System.enabled, decide_eq_true_eq] at hen
      exact h.goes rfl rfl rfl (by rw [hen]; rfl) rfl rfl h.cleared
  | add c =>
      simp only [System.enabled, decide_eq_true_eq] at hen
      refine h.goes rfl rfl rfl (by rw [hen]; rfl) rfl rfl fun hr => ?_
      -- no worker is left to add a connection behind `stop`
      rcases h.absent_or_returned hr c with hp | hp <;> simp [hen] at hp
  | finish c =>
      simp only [System.enabled, decide_eq_true_eq] at hen
      refine h.moved rfl rfl rfl (.inr ⟨by rw [hen]; rfl, by simp, by simp⟩) (fun hmem => ?_)
        (fun d hd _ => (List.mem_filter.mp hd).1) h.cleared
      simp [System.next] at hmem
  | _ => simp [Act.ofWorker] at ha

/-- The end of a session. -/
lemma Manned.ofSession (h : w.Manned) {a : Act ι} (ha : a.ofSession = true) :
    Manned { w with sys := w.sys.next a, fresh := w.created a } := by
  cases a with
  | ends c socket =>
      exact h.moved rfl rfl rfl (.inl rfl) (h.listed c) (fun d hd _ => hd) h.cleared
  | onClose c =>
      refine h.moved rfl rfl rfl (.inl rfl) (h.listed c) (fun d hd _ => hd) fun hr => ?_
      simp [System.next, h.cleared hr]
  | lost c => exact h.moved rfl rfl rfl (.inl rfl) (h.listed c) (fun d hd _ => hd) h.cleared
  | _ => simp [Act.ofSession] at ha

/-- The step of `stop` that closes the next socket. -/
lemma Manned.closeNext (h : w.Manned) (hen : w.sys.enabled .closeNext = true) :
    Manned { w with sys := w.sys.next .closeNext } := by
  cases hstop : w.sys.stop with
  | closingPending todo | closingActive todo =>
      cases todo with
      | nil => simp [System.enabled, hstop] at hen
      | cons c todo =>
          simp only [System.next, hstop]
          exact h.stopped (loop_closeSocket _ _) (phase_closeSocket _ _)
            (.inl (pending_closeSocket _ _)) (by simp) (by simp [hstop])
  | _ => simp [System.enabled, hstop] at hen

/-- `stop`, up to the join of the accept thread. -/
lemma Manned.ofStop (h : w.Manned) {a : Act ι} (ha : a.ofStop = true)
    (hen : w.sys.enabled a = true) :
    Manned { w with sys := w.sys.next a, fresh := w.created a } := by
  cases a with
  | stop =>
      simp only [System.enabled, decide_eq_true_eq] at hen
      exact h.stopped rfl (fun _ => rfl) (.inl rfl) (by simp [System.next]) (by simp [hen])
  | closeAcceptor =>
      simp only [System.enabled, decide_eq_true_eq] at hen
      exact h.stopped rfl (fun _ => rfl) (.inl rfl) (by simp [System.next]) (by simp [hen])
  | takePending =>
      simp only [System.enabled, decide_eq_true_eq] at hen
      exact h.stopped rfl (fun _ => rfl) (.inr rfl) (by simp [System.next]) (by simp [hen])
  | closeNext => exact h.closeNext hen
  | takeActive =>
      simp only [System.enabled, decide_eq_true_eq] at hen
      exact h.stopped rfl (fun _ => rfl) (.inl rfl) (by simp [System.next]) (by simp [hen])
  | leave =>
      simp only [System.enabled, decide_eq_true_eq] at hen
      exact h.stopped rfl (fun _ => rfl) (.inl rfl) (by simp [System.next]) (by simp [hen])
  | joinLoop =>
      simp only [System.enabled, decide_eq_true_eq] at hen
      exact h.stopped rfl (fun _ => rfl) (.inl rfl) (fun _ => hen.2) (by simp [hen.1])
  | _ => simp [Act.ofStop] at ha

/-- **One step of the server.** -/
lemma Manned.act (h : w.Manned) {a : Act ι} (hfree : a.ofLoop = true → w.fresh = none)
    (hen : w.sys.enabled a = true) :
    Manned { w with sys := w.sys.next a, fresh := w.created a } := by
  rcases a.thread with ha | ha | ha | ha
  · exact h.ofLoop ha (hfree ha) hen
  · exact h.ofWorker ha hen
  · exact h.ofSession ha
  · exact h.ofStop ha hen

/-- **Every step.** -/
lemma Manned.step (h : w.Manned) {d : Deed ι} (hstep : w.step d = some w') : w'.Manned := by
  cases stepped_of_step hstep with
  | act hfree hen => exact h.act hfree hen
  | @push c hfresh =>
      have hsame : ∀ d, d ∈ Whole.crew { w with fresh := none, workers := w.workers ++ [c] } ↔
          d ∈ w.crew := by
        intro d
        simp only [Whole.crew, hfresh, List.mem_append, Option.toList_none, Option.toList_some,
          List.not_mem_nil, false_or]
        exact or_congr_left or_comm
      refine ⟨fun d => ?_, fun d hd => h.known d ((hsame d).mp hd), h.held,
        fun hf => absurd rfl hf, h.joined, fun hj => ?_, h.listed, h.cleared⟩
      · rw [hsame]
        exact h.crew d
      · have hnone := h.fresh_none hj
        rw [hfresh] at hnone
        cases hnone
  | takeWorkers hstop hjoining =>
      have hsame : Whole.crew { w with workers := [], joining := .waiting w.workers } = w.crew := by
        simp [Whole.crew, hjoining, Joining.todo]
      refine ⟨fun d => ?_, fun d hd => h.known d (hsame ▸ hd), h.held, h.fresh, h.joined,
        fun _ => ⟨hstop, rfl⟩, h.listed, by simp⟩
      rw [hsame]
      exact h.crew d
  | @joinNext c todo hjoining hreturned =>
      refine ⟨fun d => ?_, fun d hd => h.known d ?_, h.held, h.fresh, h.joined,
        fun _ => h.before (by simp [hjoining]), h.listed, by simp⟩
      · rcases h.crew d with hp | hp | hp | hmem
        · exact .inl hp
        · exact .inr (.inl hp)
        · exact .inr (.inr (.inl hp))
        · rcases eq_or_ne d c with rfl | hne
          · exact .inr (.inr (.inl hreturned))
          · refine .inr (.inr (.inr ?_))
            simpa [Whole.crew, hjoining, Joining.todo, hne] using hmem
      · simp only [Whole.crew, hjoining, Joining.todo, List.mem_append] at hd ⊢
        exact hd.imp id (List.mem_cons_of_mem c)
  | clear hjoining =>
      have hsame : Whole.crew { w with
          sys := { w.sys with connections := [] }, joining := .returned } = w.crew := by
        simp [Whole.crew, hjoining, Joining.todo]
      refine ⟨fun d => ?_, fun d hd => h.known d (hsame ▸ hd), h.held, h.fresh, h.joined,
        fun _ => h.before (by simp [hjoining]), h.listed, fun _ => rfl⟩
      rw [hsame]
      exact h.crew d

omit [DecidableEq ι] in
lemma manned_started : (started : Whole ι).Manned :=
  ⟨fun _ => .inl rfl, fun c hc => by simp [started, crew, Joining.todo] at hc,
    fun _ => by simp [started, System.started], by simp [started],
    by simp [started, System.started], by simp [started], by simp [started, System.started],
    by simp [started]⟩

lemma manned_of_runs {C : Whole ι → Deed ι → Prop} (hrun : Runs step C started w) : w.Manned :=
  hrun.invariant manned_started fun _ _ _ h _ hstep => h.step hstep

end Whole

/-! ## What is left to do -/

/-- How many steps a worker has before it. -/
def Phase.left : Phase → ℕ
  | absent | returned => 0
  | leaving => 1
  | activated => 2
  | introduced => 3
  | upgraded => 4
  | adopted => 5
  | registered => 6
  | spawned => 7
  | accepted => 8

/-- How many steps `accept_loop` has before it when `is_running_` is clear. -/
def Loop.left {ι : Type} : Loop ι → ℕ
  | exited => 0
  | top => 1
  | polling => 2
  | holding _ => 3
  | ready => 4

/-- The step is one of the server's own threads; the others are those that call it, and the threads
of the connections. -/
def Deed.own {ι : Type} : Deed ι → Bool
  | act (.stop) | act (.ends _ _) | act (.onClose _) | act (.lost _) => false
  | _ => true

namespace Whole

variable {ι : Type} [DecidableEq ι] {w w' : Whole ι} {c : ι}

/-- Where `stop` is, and how many it has to go through there. -/
def stopLeft (w : Whole ι) : ℕ × ℕ :=
  match w.sys.stop with
  | .idle => (8, 0)
  | .flagged => (7, 0)
  | .deaf => (6, 0)
  | .closingPending todo => (5, todo.length)
  | .closingActive todo => (4, todo.length)
  | .left => (3, 0)
  | .joined =>
      match w.joining with
      | .before => (2, 0)
      | .waiting todo => (1, todo.length)
      | .returned => (0, 0)

/-- The steps of `accept_loop`. -/
def loopLeft (w : Whole ι) : ℕ := w.sys.loop.left + w.fresh.toList.length

/-- The steps of the workers. -/
def crewLeft (w : Whole ι) : ℕ := (w.crew.map fun c => (w.sys.session c).phase.left).sum

/-- What is left to do: `stop` counts before `accept_loop`, and that before the workers. -/
def load (w : Whole ι) : (ℕ × ℕ) × ℕ × ℕ := (w.stopLeft, w.loopLeft, w.crewLeft)

/-- Less is left. -/
def Less : (ℕ × ℕ) × ℕ × ℕ → (ℕ × ℕ) × ℕ × ℕ → Prop :=
  Prod.Lex (Prod.Lex (· < ·) (· < ·)) (Prod.Lex (· < ·) (· < ·))

lemma wellFounded_less : WellFounded Less :=
  (Nat.lt_wfRel.wf.prod_lex Nat.lt_wfRel.wf).prod_lex (Nat.lt_wfRel.wf.prod_lex Nat.lt_wfRel.wf)

omit [DecidableEq ι] in
lemma less_of_stop (h : Prod.Lex (· < ·) (· < ·) w'.stopLeft w.stopLeft) : Less w'.load w.load :=
  .left _ _ h

omit [DecidableEq ι] in
lemma less_of_loop (hstop : w'.stopLeft = w.stopLeft) (h : w'.loopLeft < w.loopLeft) :
    Less w'.load w.load := by
  rw [load, load, hstop]
  exact .right _ (.left _ _ h)

/-- A worker moves on. -/
lemma Manned.less_of_worker (h : w.Manned) {sys : System ι} {x : Session}
    (hloop : sys.loop = w.sys.loop) (hstop : sys.stop = w.sys.stop)
    (hsession : sys.session = Function.update w.sys.session c x)
    {now next : Phase} (hnow : (w.sys.session c).phase = now) (hnext : x.phase = next)
    (hmanned : now.manned = true) (hlt : next.left < now.left) :
    Less (load { w with sys := sys }) w.load := by
  subst hnow hnext
  have hmem : c ∈ w.crew := by
    rcases h.crew c with hp | hp | hp | hmem
    · simp [hp, Phase.manned] at hmanned
    · simp [hp, Phase.manned] at hmanned
    · simp [hp, Phase.manned] at hmanned
    · exact hmem
  have hcrew : crewLeft { w with sys := sys } < w.crewLeft := by
    refine List.sum_lt_sum _ _ (fun d _ => ?_) ⟨c, hmem, ?_⟩
    · show (sys.session d).phase.left ≤ _
      rw [hsession]
      rcases eq_or_ne d c with rfl | hne
      · rw [Function.update_self]
        exact hlt.le
      · rw [Function.update_of_ne hne]
    · show (sys.session c).phase.left < _
      rw [hsession, Function.update_self]
      exact hlt
  have hstopLeft : stopLeft { w with sys := sys } = w.stopLeft := by
    rw [stopLeft, stopLeft, hstop]
  have hloopLeft : loopLeft { w with sys := sys } = w.loopLeft := by
    rw [loopLeft, loopLeft, hloop]
  rw [load, load, hstopLeft, hloopLeft]
  exact .right _ (.right _ hcrew)

section Less

variable {a : Act ι}

/-- `accept_loop`, once `is_running_` is clear. -/
lemma less_of_ofLoop (hrunning : w.sys.stop.running = false) (ha : a.ofLoop = true)
    (hfresh : w.fresh = none) (hen : w.sys.enabled a = true) :
    Less (load { w with sys := w.sys.next a, fresh := w.created a }) w.load := by
  cases a with
  | poll => simp [System.enabled, hrunning] at hen
  | ready => simp [System.enabled, hrunning] at hen
  | again =>
      simp only [System.enabled, decide_eq_true_eq] at hen
      refine less_of_loop rfl ?_
      rcases hen with hl | hl <;> simp [loopLeft, hfresh, hl, System.next, created, Loop.left]
  | quit =>
      simp only [System.enabled, decide_eq_true_eq] at hen
      refine less_of_loop rfl ?_
      rcases hen with hl | hl | hl <;> simp [loopLeft, hfresh, hl, System.next, created, Loop.left]
  | accept c =>
      simp only [System.enabled, decide_eq_true_eq] at hen
      refine less_of_loop rfl ?_
      simp [loopLeft, hfresh, hen.1, System.next, created, Loop.left]
  | spawn =>
      cases hloop : w.sys.loop with
      | holding c =>
          refine less_of_loop ?_ ?_
          · simp [stopLeft, System.next, hloop, System.goTo, System.put]
          · simp [loopLeft, hfresh, hloop, System.next, created, Loop.left]
      | _ => simp [System.enabled, hloop] at hen
  | _ => simp [Act.ofLoop] at ha

/-- The worker of a connection. -/
lemma Manned.less_of_ofWorker (h : w.Manned) (ha : a.ofWorker = true)
    (hen : w.sys.enabled a = true) :
    Less (load { w with sys := w.sys.next a, fresh := w.created a }) w.load := by
  cases a with
  | register c | adopt c | fail c | introduce c keep | activate c | add c | finish c =>
      simp only [System.enabled, decide_eq_true_eq] at hen
      exact h.less_of_worker rfl rfl rfl hen rfl rfl (by simp [Phase.left])
  | upgrade c =>
      simp only [System.enabled, decide_eq_true_eq] at hen
      exact h.less_of_worker rfl rfl rfl hen.1 rfl rfl (by simp [Phase.left])
  | _ => simp [Act.ofWorker] at ha

/-- `stop` closes the next socket. -/
lemma less_of_closeNext (hen : w.sys.enabled .closeNext = true) :
    Less (load { w with sys := w.sys.next .closeNext }) w.load := by
  refine less_of_stop ?_
  cases hstop : w.sys.stop with
  | closingPending todo | closingActive todo =>
      cases todo with
      | nil => simp [System.enabled, hstop] at hen
      | cons c todo =>
          simp only [stopLeft, System.next, hstop]
          exact .right _ (Nat.lt_succ_self _)
  | _ => simp [System.enabled, hstop] at hen

/-- `stop`, up to the join of the accept thread. -/
lemma Manned.less_of_ofStop (h : w.Manned) (hcalled : w.sys.stop ≠ .idle) (ha : a.ofStop = true)
    (hen : w.sys.enabled a = true) :
    Less (load { w with sys := w.sys.next a, fresh := w.created a }) w.load := by
  cases a with
  | stop => exact absurd (of_decide_eq_true hen) hcalled
  | closeAcceptor | takePending | takeActive | leave =>
      simp only [System.enabled, decide_eq_true_eq] at hen
      refine less_of_stop ?_
      rw [stopLeft, stopLeft, hen]
      exact .left _ _ (by decide)
  | closeNext => exact less_of_closeNext hen
  | joinLoop =>
      simp only [System.enabled, decide_eq_true_eq] at hen
      have hbefore : w.joining = .before := by
        by_contra hne
        have hjoined := (h.before hne).1
        simp [hen.1] at hjoined
      refine less_of_stop ?_
      simp only [stopLeft, System.next, hen.1, hbefore]
      exact .left _ _ (by decide)
  | _ => simp [Act.ofStop] at ha

end Less

/-- **Every step of the server's own threads** leaves less to do once `is_running_` is clear. -/
lemma Manned.less_step (h : w.Manned) (hcalled : w.sys.stop ≠ .idle) {d : Deed ι}
    (hown : d.own = true) (hstep : w.step d = some w') : Less w'.load w.load := by
  have hrunning : w.sys.stop.running = false := by
    cases hs : w.sys.stop <;> simp [hs, Stop.running] at hcalled ⊢
  cases stepped_of_step hstep with
  | @act a hfree hen =>
      rcases a.thread with ha | ha | ha | ha
      · exact less_of_ofLoop hrunning ha (hfree ha) hen
      · exact h.less_of_ofWorker ha hen
      · cases a <;> simp [Deed.own, Act.ofSession] at hown ha
      · exact h.less_of_ofStop hcalled ha hen
  | push hfresh =>
      refine less_of_loop rfl ?_
      simp [loopLeft, hfresh]
  | takeWorkers hstop hjoining =>
      refine less_of_stop ?_
      simp only [stopLeft, hstop, hjoining]
      exact .left _ _ (by decide)
  | joinNext hjoining hreturned =>
      refine less_of_stop ?_
      simp only [stopLeft, (h.before (by simp [hjoining])).1, hjoining]
      exact .right _ (Nat.lt_succ_self _)
  | clear hjoining =>
      refine less_of_stop ?_
      simp only [stopLeft, (h.before (by simp [hjoining])).1, hjoining]
      exact .left _ _ (by decide)

/-! ## `stop` returns -/

/-- `stop` reaches every connection. -/
def Timely (w : Whole ι) : Deed ι → Prop
  | .act a => w.sys.Timely a
  | _ => True

/-- The step waits for the peer: a handshake ends when the peer has sent its part, or when the
socket is closed. -/
def needsPeer (w : Whole ι) : Deed ι → Bool
  | .act (.upgrade _) => true
  | .act (.fail c) => (w.sys.session c).socketOpen
  | _ => false

/-- One step of the server's own threads. -/
def Goes (w w' : Whole ι) : Prop := ∃ d : Deed ι, d.own = true ∧ w.Timely d ∧ w.step d = some w'

/-- The server can take the step without a peer. -/
def CanGo (w : Whole ι) (d : Deed ι) : Prop :=
  d.own = true ∧ w.Timely d ∧ w.needsPeer d = false ∧ (w.step d).isSome = true

lemma canGo_act {a : Act ι} (hown : (Deed.act a).own = true) (htimely : w.sys.Timely a)
    (hpeer : w.needsPeer (.act a) = false) (hfree : a.ofLoop = true → w.fresh = none)
    (hen : w.sys.enabled a = true) : w.CanGo (.act a) := by
  refine ⟨hown, htimely, hpeer, ?_⟩
  have hidle : (a.ofLoop && w.fresh.isSome) = false := by
    cases hloop : a.ofLoop with
    | false => rfl
    | true => simp [hfree hloop]
  simp [step, System.step, hen, hidle]

/-- A worker that has not returned goes on, unless it waits for its peer. -/
lemma exists_canGo_worker (hmanned : (w.sys.session c).phase.manned = true)
    (hsocket : (w.sys.session c).phase = .adopted → (w.sys.session c).socketOpen = false) :
    ∃ d, w.CanGo d := by
  cases hphase : (w.sys.session c).phase with
  | absent => simp [hphase, Phase.manned] at hmanned
  | accepted => simp [hphase, Phase.manned] at hmanned
  | spawned =>
      exact ⟨_, canGo_act (a := .register c) rfl trivial rfl (by simp [Act.ofLoop])
        (by simp [System.enabled, hphase])⟩
  | registered =>
      exact ⟨_, canGo_act (a := .adopt c) rfl trivial rfl (by simp [Act.ofLoop])
        (by simp [System.enabled, hphase])⟩
  | adopted =>
      exact ⟨_, canGo_act (a := .fail c) rfl trivial (hsocket hphase) (by simp [Act.ofLoop])
        (by simp [System.enabled, hphase])⟩
  | upgraded =>
      exact ⟨_, canGo_act (a := .introduce c true) rfl trivial rfl (by simp [Act.ofLoop])
        (by simp [System.enabled, hphase])⟩
  | introduced =>
      exact ⟨_, canGo_act (a := .activate c) rfl trivial rfl (by simp [Act.ofLoop])
        (by simp [System.enabled, hphase])⟩
  | activated =>
      exact ⟨_, canGo_act (a := .add c) rfl trivial rfl (by simp [Act.ofLoop])
        (by simp [System.enabled, hphase])⟩
  | leaving =>
      exact ⟨_, canGo_act (a := .finish c) rfl trivial rfl (by simp [Act.ofLoop])
        (by simp [System.enabled, hphase])⟩
  | returned => simp [hphase, Phase.manned] at hmanned

/-- `accept_loop` goes on until it has ended. -/
lemma Manned.exists_canGo_loop (h : w.Manned) (hexited : w.sys.loop ≠ .exited) :
    ∃ d, w.CanGo d := by
  cases hfresh : w.fresh with
  | some c => exact ⟨.push, rfl, trivial, rfl, by simp [Whole.step, hfresh]⟩
  | none =>
      cases hloop : w.sys.loop with
      | top =>
          exact ⟨_, canGo_act (a := .quit) rfl trivial rfl (fun _ => hfresh)
            (by simp [System.enabled, hloop])⟩
      | polling =>
          exact ⟨_, canGo_act (a := .quit) rfl trivial rfl (fun _ => hfresh)
            (by simp [System.enabled, hloop])⟩
      | ready =>
          exact ⟨_, canGo_act (a := .quit) rfl trivial rfl (fun _ => hfresh)
            (by simp [System.enabled, hloop])⟩
      | holding c =>
          exact ⟨_, canGo_act (a := .spawn) rfl trivial rfl (fun _ => hfresh)
            (by simp [System.enabled, hloop, (h.held c).mp hloop])⟩
      | exited => exact absurd hloop hexited

/-- `stop` takes the pending connections once every accepted descriptor is registered, and the
threads that are on their way there can go on. -/
lemma Manned.exists_canGo_deaf (h : w.Manned) (hstop : w.sys.stop = .deaf) : ∃ d, w.CanGo d := by
  by_cases hregistered : ∀ c, (w.sys.session c).phase.unregistered = false
  · exact ⟨_, canGo_act (a := .takePending) rfl hregistered rfl (by simp [Act.ofLoop])
      (by simp [System.enabled, hstop])⟩
  · obtain ⟨c, hc⟩ := not_forall.mp hregistered
    cases hphase : (w.sys.session c).phase with
    | accepted =>
        have hheld := (h.held c).mpr hphase
        exact h.exists_canGo_loop (by simp [hheld])
    | spawned =>
        exact exists_canGo_worker (c := c) (by simp [hphase, Phase.manned]) (by simp [hphase])
    | _ => simp [hphase, Phase.unregistered] at hc

/-- Behind the join of the accept thread `stop` waits for a worker at most, and that has its socket
closed. -/
lemma Manned.exists_canGo_joined (h : w.Manned) (hreaching : w.sys.Reaching)
    (hstop : w.sys.stop = .joined) (hjoining : w.joining ≠ .returned) : ∃ d, w.CanGo d := by
  cases hj : w.joining with
  | returned => exact absurd hj hjoining
  | before => exact ⟨.takeWorkers, rfl, trivial, rfl, by simp [Whole.step, hstop, hj]⟩
  | waiting todo =>
      cases todo with
      | nil => exact ⟨.clear, rfl, trivial, rfl, by simp [Whole.step, hj]⟩
      | cons c todo =>
          by_cases hreturned : (w.sys.session c).phase = .returned
          · exact ⟨.joinNext, rfl, trivial, rfl, by simp [Whole.step, hj, hreturned]⟩
          · have hmem : c ∈ w.crew := by simp [Whole.crew, hj, Joining.todo]
            have hknown := h.known c hmem
            have hheld : (w.sys.session c).phase ≠ .accepted := by
              rw [ne_eq, ← h.held, h.joined hstop]
              simp
            refine exists_canGo_worker (c := c) ?_ fun hadopted => ?_
            · cases hphase : (w.sys.session c).phase <;> simp_all [Phase.manned]
            · have hcovered := hreaching c
              rw [hstop] at hcovered
              exact hcovered.2 (by rw [hadopted]; rfl)

/-- **Somebody can go on** until `stop` has returned. -/
lemma Manned.exists_canGo (h : w.Manned) (hreaching : w.sys.Reaching) (hcalled : w.sys.stop ≠ .idle)
    (hjoining : w.joining ≠ .returned) : ∃ d, w.CanGo d := by
  cases hstop : w.sys.stop with
  | idle => exact absurd hstop hcalled
  | flagged =>
      exact ⟨_, canGo_act (a := .closeAcceptor) rfl trivial rfl (by simp [Act.ofLoop])
        (by simp [System.enabled, hstop])⟩
  | deaf => exact h.exists_canGo_deaf hstop
  | closingPending todo =>
      cases todo with
      | nil =>
          exact ⟨_, canGo_act (a := .takeActive) rfl trivial rfl (by simp [Act.ofLoop])
            (by simp [System.enabled, hstop])⟩
      | cons c todo =>
          -- a pending connection adopts its descriptor before its socket is closed
          by_cases hphase : (w.sys.session c).phase = .registered
          · exact exists_canGo_worker (c := c) (by simp [hphase, Phase.manned]) (by simp [hphase])
          · have htimely : w.sys.Timely .closeNext := by
              intro d hd
              rw [hstop] at hd
              obtain rfl := Option.some.inj hd
              exact hphase
            exact ⟨_, canGo_act (a := .closeNext) rfl htimely rfl (by simp [Act.ofLoop])
              (by simp [System.enabled, hstop])⟩
  | closingActive todo =>
      cases todo with
      | nil =>
          exact ⟨_, canGo_act (a := .leave) rfl trivial rfl (by simp [Act.ofLoop])
            (by simp [System.enabled, hstop])⟩
      | cons c todo =>
          have htimely : w.sys.Timely .closeNext := by
            intro d hd
            rw [hstop] at hd
            cases hd
          exact ⟨_, canGo_act (a := .closeNext) rfl htimely rfl (by simp [Act.ofLoop])
            (by simp [System.enabled, hstop])⟩
  | left =>
      by_cases hexited : w.sys.loop = .exited
      · exact ⟨_, canGo_act (a := .joinLoop) rfl trivial rfl (by simp [Act.ofLoop])
          (by simp [System.enabled, hstop, hexited])⟩
      · exact h.exists_canGo_loop hexited
  | joined => exact h.exists_canGo_joined hreaching hstop hjoining

lemma reaching_of_step (h : w.sys.Reaching) {d : Deed ι} (htimely : w.Timely d)
    (hstep : w.step d = some w') : w'.sys.Reaching := by
  cases stepped_of_step hstep with
  | act hfree hen => exact h.step htimely (by rw [System.step, if_pos hen])
  | push hfresh => exact h
  | takeWorkers hstop hjoining => exact h
  | joinNext hjoining hreturned => exact h
  | clear hjoining => exact h

lemma called_of_step (h : w.sys.stop ≠ .idle) {d : Deed ι} (hstep : w.step d = some w') :
    w'.sys.stop ≠ .idle := by
  cases stepped_of_step hstep with
  | @act a hfree hen =>
      cases a with
      | spawn => cases hloop : w.sys.loop <;> simp [System.next, hloop, System.goTo, System.put, h]
      | closeNext =>
          simp only [System.next]
          split <;> simp [h]
      | _ => simp [System.next, System.goTo, System.put, h]
  | push hfresh => exact h
  | takeWorkers hstop hjoining => exact h
  | joinNext hjoining hreturned => exact h
  | clear hjoining => exact h

/-- **`stop` returns.**  In every run in which `stop` reaches every connection, once it has been
called: the accept thread, the workers and `stop` itself come to an end in whatever order they run,
and if none of them can go on without a peer, `stop` has returned. -/
theorem stop_returns (w : Whole ι) (hrun : Runs step Timely started w)
    (hcalled : w.sys.stop ≠ .idle) :
    Acc (fun w' w => Goes w w') w ∧ ((∀ d, ¬w.CanGo d) → w.joining = .returned) := by
  have hmanned := manned_of_runs hrun
  constructor
  · refine acc_of_decreasing (I := fun w => Manned w ∧ w.sys.stop ≠ .idle) wellFounded_less load
      (fun w w' hinv hgoes => ?_) ⟨hmanned, hcalled⟩
    obtain ⟨d, hown, -, hstep⟩ := hgoes
    exact ⟨⟨hinv.1.step hstep, called_of_step hinv.2 hstep⟩, hinv.1.less_step hinv.2 hown hstep⟩
  · intro hstuck
    have hreaching : w.sys.Reaching := by
      refine hrun.invariant (I := fun w => w.sys.Reaching) ?_ fun _ _ _ h htimely hstep =>
        reaching_of_step h htimely hstep
      intro c hpending
      simp [started, System.started, Phase.isPending] at hpending
    by_contra hjoining
    obtain ⟨d, hd⟩ := hmanned.exists_canGo hreaching hcalled hjoining
    exact hstuck d hd

end Whole

/-- The server is stopped while the peer has not sent its part of the handshake. -/
def stoppedAndJoining : List (Deed Unit) :=
  [.act .poll, .act .ready, .act (.accept ()), .act .spawn, .push, .act (.register ()),
    .act (.adopt ()), .act .stop, .act .quit, .act .closeAcceptor, .act .takePending,
    .act .closeNext, .act .takeActive, .act .leave, .act .joinLoop, .takeWorkers]

namespace Whole

instance {ι : Type} [DecidableEq ι] [Fintype ι] (w : Whole ι) (d : Deed ι) :
    Decidable (w.Timely d) := by
  cases d <;> unfold Timely <;> infer_instance

/-- `stop` waits for the worker, which can go on. -/
theorem stop_returns_joining :
    ∃ w : Whole Unit, play step started stoppedAndJoining = some w ∧
      w.joining = .waiting [()] ∧ Acc (fun w' w => Goes w w') w ∧
      ((∀ d, ¬w.CanGo d) → w.joining = .returned) := by
  have hplay : (play step started stoppedAndJoining).map
      (fun w => (w.joining, w.sys.stop)) = some (.waiting [()], .joined) := by
    decide
  obtain ⟨w, hw, hsummary⟩ := Option.map_eq_some_iff.mp hplay
  simp only [Prod.mk.injEq] at hsummary
  obtain ⟨hjoining, hstop⟩ := hsummary
  have hrun : Runs step Timely started w :=
    runs_of_play (D := fun w d => decide (w.Timely d)) _ (fun w d h => of_decide_eq_true h) _ hw
      (by decide)
  exact ⟨w, hw, hjoining, stop_returns w hrun (by simp [hstop])⟩

end Whole

/-! ## What `stop` leaves behind -/

/-- When `stop` has taken the active connections, one that is open is among those whose sockets are
closed, or its socket is closed. -/
def Severed {ι : Type} (stop : Stop ι) (c : ι) (x : Session) : Prop :=
  match stop with
  | .closingActive todo => x.isOpen = true → c ∈ todo ∨ x.socketOpen = false
  | .left | .joined => x.isOpen = true → x.socketOpen = false
  | _ => True

section Severed

variable {ι : Type} {stop : Stop ι} {c : ι} {x x' : Session} {listed : Prop}

lemma Severed.mono (h : Severed stop c x) (hopen : x'.isOpen = true → x.isOpen = true)
    (hsocket : x.socketOpen = false → x'.socketOpen = false) : Severed stop c x' := by
  unfold Severed at h ⊢
  split at h
  · exact fun ho => (h (hopen ho)).imp id hsocket
  · exact fun ho => hsocket (h (hopen ho))
  · exact fun ho => hsocket (h (hopen ho))
  · trivial

lemma severed_of_closed (stop : Stop ι) (c : ι) (h : x.socketOpen = false) : Severed stop c x := by
  unfold Severed
  split
  · exact fun _ => .inr h
  · exact fun _ => h
  · exact fun _ => h
  · trivial

/-- A connection that is opened now had been pending. -/
lemma Covered.severed (h : Covered stop c x listed) (hpending : x.phase.isPending = true)
    (hsocket : x.socketOpen = false → x'.socketOpen = false) : Severed stop c x' := by
  unfold Covered at h
  split at h
  · trivial
  · trivial
  · trivial
  · trivial
  · exact severed_of_closed _ c (hsocket (h.2 hpending))
  · exact severed_of_closed _ c (hsocket (h.2 hpending))
  · exact severed_of_closed _ c (hsocket (h.2 hpending))

/-- While the acceptor is open, no socket is to be closed. -/
lemma severed_of_listening (h : stop.listening = true) (c : ι) (x : Session) :
    Severed stop c x := by
  cases stop <;> trivial

end Severed

namespace System

variable {ι : Type} [DecidableEq ι] {s s' : System ι}

/-- What holds in every state of a run that is timely and keeps `connections_` exact. -/
def Cut (s : System ι) : Prop := ∀ c, Severed s.stop c (s.session c)

/-- One connection changes. -/
lemma Cut.put (h : s.Cut) {c : ι} {x : Session} (hstop : s'.stop = s.stop)
    (hsession : s'.session = Function.update s.session c x) (hx : Severed s.stop c x) :
    s'.Cut := by
  intro d
  rw [hstop, hsession]
  rcases eq_or_ne d c with rfl | hne
  · rw [Function.update_self]
    exact hx
  · rw [Function.update_of_ne hne]
    exact h d

/-- `stop` closes the next socket. -/
lemma Cut.closeNext (h : s.Cut) (hexact : s.Exact) (hen : s.enabled .closeNext = true) :
    (s.next .closeNext).Cut := by
  cases hstop : s.stop with
  | closingPending todo =>
      cases todo with
      | nil => simp [enabled, hstop] at hen
      | cons c todo =>
          simp only [next, hstop]
          exact fun d => trivial
  | closingActive todo =>
      cases todo with
      | nil => simp [enabled, hstop] at hen
      | cons c todo =>
          simp only [next, hstop]
          intro d hopen
          have hd := h d
          rw [hstop] at hd
          by_cases hphase : (s.session c).phase = .registered
          · -- a connection that is pending is not open
            have hsame : s.closeSocket c = s := by rw [System.closeSocket, if_pos hphase]
            simp only [hsame] at hopen ⊢
            refine (hd hopen).imp (fun hmem => ?_) id
            refine (List.mem_cons.mp hmem).resolve_left ?_
            rintro rfl
            have hclosed := ((hexact d).early (by rw [hphase]; rfl)).1
            simp [hclosed] at hopen
          · simp only [System.closeSocket, if_neg hphase, System.put] at hopen ⊢
            rcases eq_or_ne d c with rfl | hne
            · rw [Function.update_self]
              exact .inr rfl
            · rw [Function.update_of_ne hne] at hopen ⊢
              exact (hd hopen).imp (fun hmem => (List.mem_cons.mp hmem).resolve_left hne) id
  | _ => simp [enabled, hstop] at hen

section Step

variable {a : Act ι}

/-- `accept_loop`, whose new connection is not open yet. -/
lemma Cut.ofLoop (h : s.Cut) (ha : a.ofLoop = true) (hen : s.enabled a = true) :
    (s.next a).Cut := by
  cases a with
  | poll | ready | again | quit => exact h
  | accept c =>
      simp only [enabled, decide_eq_true_eq] at hen
      exact h.put rfl rfl (severed_of_listening hen.2.1 c _)
  | spawn =>
      cases hloop : s.loop with
      | holding c =>
          simp only [next, hloop]
          exact h.put rfl rfl ((h c).mono id id)
      | _ => simp [enabled, hloop] at hen
  | _ => simp [Act.ofLoop] at ha

/-- The worker of a connection.  `activate` opens one, which is pending and so reached. -/
lemma Cut.ofWorker (h : s.Cut) (ha : a.ofWorker = true) (hreaching : s.Reaching)
    (hen : s.enabled a = true) : (s.next a).Cut := by
  cases a with
  | register c | adopt c | upgrade c | fail c | introduce c keep | add c | finish c =>
      exact h.put rfl rfl ((h c).mono id id)
  | activate c =>
      simp only [enabled, decide_eq_true_eq] at hen
      exact h.put rfl rfl ((hreaching c).severed (by rw [hen]; rfl) id)
  | _ => simp [Act.ofWorker] at ha

lemma Cut.ofSession (h : s.Cut) (ha : a.ofSession = true) : (s.next a).Cut := by
  cases a with
  | ends c socket => exact h.put rfl rfl ((h c).mono (by simp) fun hclosed => by simp [hclosed])
  | onClose c => exact h.put rfl rfl ((h c).mono id id)
  | lost c => exact h.put rfl rfl ((h c).mono (by simp) id)
  | _ => simp [Act.ofSession] at ha

/-- `stop` takes the active connections: one that is open is registered, or pending still. -/
lemma Cut.takeActive (hreaching : s.Reaching) (hexact : s.Exact)
    (hstop : s.stop = .closingPending []) : (s.next .takeActive).Cut := by
  intro c hopen
  rcases (hexact c).opened hopen with hphase | hmem
  · -- between `activate` and `add_connection` a connection is pending
    have hcovered := hreaching c
    rw [hstop] at hcovered
    exact .inr ((hcovered.2 (by rw [hphase]; rfl)).resolve_left List.not_mem_nil)
  · exact .inl hmem

/-- `stop`. -/
lemma Cut.ofStop (h : s.Cut) (ha : a.ofStop = true) (hreaching : s.Reaching)
    (hexact : s.stop ≠ .joined → s.Exact) (hen : s.enabled a = true) : (s.next a).Cut := by
  cases a with
  | stop | closeAcceptor | takePending => exact fun c => trivial
  | closeNext =>
      refine h.closeNext (hexact fun hjoined => ?_) hen
      simp [enabled, hjoined] at hen
  | takeActive =>
      simp only [enabled, decide_eq_true_eq] at hen
      exact .takeActive hreaching (hexact (by simp [hen])) hen
  | leave =>
      simp only [enabled, decide_eq_true_eq] at hen
      intro c hopen
      have hc := h c
      rw [hen] at hc
      exact (hc hopen).resolve_left List.not_mem_nil
  | joinLoop =>
      simp only [enabled, decide_eq_true_eq] at hen
      intro c hopen
      have hc := h c
      rw [hen.1] at hc
      exact hc hopen
  | _ => simp [Act.ofStop] at ha

/-- **One step** keeps it. -/
lemma Cut.step (h : s.Cut) (hreaching : s.Reaching) (hexact : s.stop ≠ .joined → s.Exact)
    (hstep : s.step a = some s') : s'.Cut := by
  obtain ⟨hen, rfl⟩ := step_eq_some hstep
  rcases a.thread with ha | ha | ha | ha
  · exact h.ofLoop ha hen
  · exact h.ofWorker ha hreaching hen
  · exact h.ofSession ha
  · exact h.ofStop ha hreaching hexact hen

end Step

end System

namespace Whole

variable {ι : Type} [DecidableEq ι] {w w' : Whole ι}

/-- `connections_` stays exact. -/
def Kept (w : Whole ι) : Deed ι → Prop
  | .act a => w.sys.Kept a
  | _ => True

/-- What holds in every state of a run that is timely and keeps `connections_` exact. -/
structure Clearing (w : Whole ι) : Prop where
  reaching : w.sys.Reaching
  registry : w.joining ≠ .returned → w.sys.Exact
  cut : w.sys.Cut

lemma Clearing.step (h : w.Clearing) (hmanned : w.Manned) {d : Deed ι} (htimely : w.Timely d)
    (hkept : w.Kept d) (hstep : w.step d = some w') : w'.Clearing := by
  have hreaching := reaching_of_step h.reaching htimely hstep
  cases stepped_of_step hstep with
  | @act a hfree hen =>
      have hsys : w.sys.step a = some (w.sys.next a) := by rw [System.step, if_pos hen]
      refine ⟨hreaching, fun hj => (h.registry hj).step hkept hsys,
        h.cut.step h.reaching (fun hnot => h.registry fun hj => ?_) hsys⟩
      exact hnot (hmanned.before (by simp [hj])).1
  | push hfresh => exact ⟨h.reaching, h.registry, h.cut⟩
  | takeWorkers hstop hjoining =>
      exact ⟨h.reaching, fun _ => h.registry (by simp [hjoining]), h.cut⟩
  | joinNext hjoining hreturned =>
      exact ⟨h.reaching, fun _ => h.registry (by simp [hjoining]), h.cut⟩
  | clear hjoining => exact ⟨h.reaching, fun hj => absurd rfl hj, h.cut⟩

/-- **What `stop` leaves behind.**  In every run, from where `stop` has returned: the accept loop
has ended, every worker has returned, and nothing is pending or registered.  If moreover `stop` has
reached every connection and `connections_` was exact, every connection that is still open has its
socket closed. -/
theorem stop_clears (w : Whole ι) (hrun : Runs step (fun _ _ => True) started w)
    (hreturned : w.joining = .returned) :
    w.sys.loop = .exited ∧ w.sys.pending = [] ∧ w.sys.connections = [] ∧
      (∀ c, (w.sys.session c).phase = .absent ∨ (w.sys.session c).phase = .returned) ∧
      (Runs step (fun w d => w.Timely d ∧ w.Kept d) started w →
        ∀ c, (w.sys.session c).isOpen = true → (w.sys.session c).socketOpen = false) := by
  have hmanned := manned_of_runs hrun
  have hphase := hmanned.absent_or_returned hreturned
  have hstop := (hmanned.before (by simp [hreturned])).1
  refine ⟨hmanned.joined hstop, ?_, hmanned.cleared hreturned, hphase, fun hkept c hopen => ?_⟩
  · refine List.eq_nil_iff_forall_not_mem.mpr fun c hmem => ?_
    have hpending := hmanned.listed c hmem
    rcases hphase c with hp | hp <;> simp [hp, Phase.isPending] at hpending
  · have hboth : w.Manned ∧ w.Clearing := by
      refine hkept.invariant (I := fun w => Manned w ∧ w.Clearing) ⟨manned_started, ?_, ?_, ?_⟩
        fun _ _ _ h hC hstep => ⟨h.1.step hstep, h.2.step h.1 hC.1 hC.2 hstep⟩
      · intro c hpending
        simp [started, System.started, Phase.isPending] at hpending
      · intro _ c
        exact ⟨rfl, fun _ => ⟨rfl, rfl⟩, fun _ => rfl, by simp [started, System.started],
          by simp [started, System.started], by simp [started, System.started]⟩
      · exact fun c => trivial
    have hc := hboth.2.cut c
    rw [hstop] at hc
    exact hc hopen

instance (w : Whole ι) (d : Deed ι) : Decidable (w.Kept d) := by
  cases d <;> unfold Kept <;> infer_instance

end Whole

/-- A session is open when `stop` is called. -/
def stoppedInSession : List (Deed Unit) :=
  [.act .poll, .act .ready, .act (.accept ()), .act .spawn, .push, .act (.register ()),
    .act (.adopt ()), .act (.upgrade ()), .act (.introduce () true), .act (.activate ()),
    .act (.add ()), .act (.finish ()), .act .stop, .act .quit, .act .closeAcceptor,
    .act .takePending, .act .takeActive, .act .closeNext, .act .leave, .act .joinLoop, .takeWorkers,
    .joinNext, .clear]

namespace Whole

/-- It is still open when `stop` returns, and its socket is closed. -/
theorem stop_clears_session :
    ∃ w : Whole Unit, play step started stoppedInSession = some w ∧
      (w.sys.session ()).isOpen = true ∧ (w.sys.session ()).socketOpen = false ∧
      w.sys.connections = [] := by
  have hplay : (play step started stoppedInSession).map
      (fun w => (w.joining, (w.sys.session ()).isOpen)) = some (.returned, true) := by
    decide
  obtain ⟨w, hw, hsummary⟩ := Option.map_eq_some_iff.mp hplay
  simp only [Prod.mk.injEq] at hsummary
  obtain ⟨hjoining, hopen⟩ := hsummary
  have hrun : Runs step (fun _ _ => True) started w :=
    runs_of_play (D := fun _ _ => true) _ (fun _ _ _ => trivial) _ hw (by decide)
  have hkept : Runs step (fun w d => w.Timely d ∧ w.Kept d) started w :=
    runs_of_play (D := fun w d => decide (w.Timely d ∧ w.Kept d)) _
      (fun w d h => of_decide_eq_true h) _ hw (by decide)
  obtain ⟨-, -, hconnections, -, hsocket⟩ := stop_clears w hrun hjoining
  exact ⟨w, hw, hopen, hsocket hkept () hopen, hconnections⟩

end Whole

end Wscpp.Cpp.Server
