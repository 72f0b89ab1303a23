import Wscpp.Rs.Senders

/-!
# Reading and sending at the same time

`read_frame` holds `stream` while it waits for bytes of the peer, and every sender needs `stream`.
So a task that sends while another one waits in `read_message` waits for the peer too
(`duplex_starved`).  Nothing but the peer helps it: as long as nothing arrives, no task of the
connection writes a byte (`waiting_blocks`).  Two peers that both wait have come to an end, since
what each of them waits for is what the other one cannot send (`peers_block`).

A sender is never kept waiting like that in the runs in which reading and sending take turns
(`duplex_when_alternating`): no call of `send_*` or `close` begins while a read waits, and no read
begins to wait while such a call has its frame still to send.
-/

namespace Wscpp.Rs.Threads

open Moves Locks

namespace System

variable {ι : Type} [DecidableEq ι] {e : Env} {c : Connection} {s s' : System ι} {t u : ι}
  {ok : Bool}

/-- The task waits for bytes of the peer. -/
def waits (s : System ι) (t : ι) : Bool := atRead (s.rest t) && s.silent

/-- A sending call waits for a mutex whose holder waits for bytes of the peer. -/
def Starved (s : System ι) : Prop :=
  ∃ t m rest u, s.reading t = false ∧ s.rest t = .lock m :: rest ∧ s.owner m = some u ∧
    s.waits u = true

/-! ## What a waiting task holds -/

omit [DecidableEq ι] in
/-- The mutexes that are held during a read. -/
lemma Orderly.holds_of_atRead (h : Orderly e c s) (hread : atRead (s.rest t) = true) (m : Mutex) :
    holds m (s.rest t) = true ↔ m = .stream ∨ m = .parser ∨ m = .readState := by
  have hsound := h.sound t
  cases hrest : s.rest t with
  | nil => simp [hrest] at hread
  | cons op rest =>
      cases op with
      | lock m' => simp [hrest] at hread
      | unlock m' => simp [hrest] at hread
      | act a =>
          cases a with
          | read =>
              rw [hrest, sound_act] at hsound
              obtain rfl : rest = _ := hsound.1.2.2
              cases m <;> simp
          | _ => simp [hrest] at hread

omit [DecidableEq ι] in
lemma Orderly.atRead_unique (h : Orderly e c s) (ht : atRead (s.rest t) = true)
    (hu : atRead (s.rest u) = true) : t = u :=
  h.owned.unique ((h.holds_of_atRead ht .stream).mpr (.inl rfl))
    ((h.holds_of_atRead hu .stream).mpr (.inl rfl))

/-- A task comes to read by taking `stream`, and in no other way. -/
lemma Orderly.atRead_ran (h : Orderly e c s) (hran : Ran e s t ok s')
    (hread : atRead (s'.rest t) = true) : ∃ rest, s.rest t = .lock .stream :: rest ∧
      s'.rest t = rest ∧ s'.silent = s.silent := by
  have hsound := h.sound t
  -- every other operation leaves a task that is not at the read
  have hnot : ∀ code : Code, s'.rest t = code → atRead code = false → False := by
    intro code hcode hfalse
    rw [hcode, hfalse] at hread
    simp at hread
  cases hran with
  | @lock m rest hrest hfree =>
      have hput : Function.update s.rest t rest t = rest := Function.update_self t rest s.rest
      rw [hrest, sound_lock] at hsound
      -- the mutex in front of a read is `stream`
      obtain rfl : m = .stream := by
        apply hsound.1.2.2.1
        rw [← hput]
        exact hread
      exact ⟨rest, hrest, hput, rfl⟩
  | @unlock m rest hrest =>
      rw [hrest, sound_unlock] at hsound
      exact (hnot rest (Function.update_self _ _ _) hsound.1.2.2).elim
  | @turn a rest hrest ha hwait =>
      rw [hrest] at hsound
      have hturn := hsound.turn (c := s.conn) ha (e.keys (a.turn e s.conn rest).1.writes)
      exact (hnot _ (Function.update_self _ _ _) hturn.atRead_eq).elim
  | compress hrest hframe =>
      obtain ⟨rfl, hcode⟩ := h.continues_compressed hrest hframe
      exact (hnot _ (Function.update_self _ _ _) hcode.atRead_eq).elim
  | uncompressed hrest hframe =>
      rw [hrest] at hsound
      exact (hnot _ (Function.update_self _ _ _) hsound.continues.atRead_eq).elim
  | part hrest hpiece hlt => exact (hnot _ (Function.update_self _ _ _) rfl).elim
  | last hrest =>
      rw [hrest] at hsound
      exact (hnot _ (Function.update_self _ _ _) hsound.continues.atRead_eq).elim
  | @fail a rest hrest hok hisRead =>
      have hcode : Continues e c rest (unwind [] rest) := continues_unwind rest
      exact (hnot _ (Function.update_self _ _ _) hcode.atRead_eq).elim

/-- Nobody else takes what a reading task waits for. -/
lemma Orderly.silent_ran (h : Orderly e c s) (hran : Ran e s t ok s') (hu : u ≠ t)
    (hread : atRead (s.rest u) = true) : s'.silent = s.silent := by
  have hinput : s'.conn.input = s.conn.input ∧ s'.ended = s.ended := by
    cases hran with
    | @turn a rest hrest ha hwait =>
        refine ⟨turn_input e s.conn rest ?_, rfl⟩
        cases hisRead : a.isRead with
        | false => rfl
        | true =>
            have ht : atRead (s.rest t) = true := by
              rw [hrest, atRead_act]
              exact hisRead
            exact absurd (h.atRead_unique hread ht) hu
    | _ => exact ⟨rfl, rfl⟩
  unfold silent
  rw [hinput.1, hinput.2]

/-! ## Waiting blocks the connection -/

omit [DecidableEq ι] in
lemma waits_iff : s.waits t = true ↔ atRead (s.rest t) = true ∧ s.silent = true := by
  simp [waits]

lemma ran_rest (hran : Ran e s t ok s') :
    (∃ code, s'.rest = Function.update s.rest t code) ∧ s'.reading = s.reading := by
  cases hran <;> exact ⟨⟨_, rfl⟩, rfl⟩

/-- A task that waits does nothing. -/
lemma ne_of_waits (hwait : s.waits u = true) (hran : Ran e s t ok s') : u ≠ t := by
  rintro rfl
  obtain ⟨hread, hsilent⟩ := waits_iff.mp hwait
  cases hran with
  | turn hrest ha hturn =>
      rw [hrest, atRead_act] at hread
      simp [hturn hread] at hsilent
  | fail hrest hok hisRead =>
      rw [hrest, atRead_act, hisRead] at hread
      simp at hread
  | lock hrest hfree => simp [hrest] at hread
  | unlock hrest => simp [hrest] at hread
  | compress hrest hframe => simp [hrest] at hread
  | uncompressed hrest hframe => simp [hrest] at hread
  | part hrest hpiece hlt => simp [hrest] at hread
  | last hrest => simp [hrest] at hread

/-- Nobody else writes while a task reads. -/
lemma Orderly.wire_ran (h : Orderly e c s) (hran : Ran e s t ok s') (hu : u ≠ t)
    (hread : atRead (s.rest u) = true) : s'.wire = s.wire := by
  have hstream := (h.holds_of_atRead hread .stream).mpr (.inl rfl)
  have hwrite : ∀ job written rest, s.rest t = .act (.write job written) :: rest → False := by
    intro job written rest hrest
    have hsound := h.sound t
    rw [hrest, sound_act] at hsound
    apply hu
    apply h.owned.unique hstream
    rw [hrest, holds_act]
    exact hsound.1.2.2.2.1
  cases hran with
  | part hrest hpiece hlt => exact (hwrite _ _ _ hrest).elim
  | last hrest => exact (hwrite _ _ _ hrest).elim
  | _ => rfl

/-- Nothing comes from the peer. -/
def NoArrival (_ : System ι) : Act ι → Prop
  | .arrive _ | .hangUp => False
  | _ => True

/-- A task that waits goes on waiting, and nobody writes. -/
lemma Orderly.waits_step {a : Act ι} (h : Orderly e c s) (hwait : s.waits u = true)
    (ha : s.NoArrival a) (hstep : s.step e a = some s') :
    s'.waits u = true ∧ s'.wire = s.wire := by
  obtain ⟨hread, hsilent⟩ := waits_iff.mp hwait
  have hother : ∀ t, s.rest t = [] → u ≠ t := by
    rintro t hidle rfl
    simp [hidle] at hread
  cases stepped_of_step hstep with
  | @send t call hidle =>
      refine ⟨waits_iff.mpr ⟨?_, hsilent⟩, rfl⟩
      have hsame := Function.update_of_ne (hother t hidle)
        (Turn.code (e.keys s.conn.writes) (.answer call [] [])) s.rest
      rw [← hsame] at hread
      exact hread
  | @read t hidle =>
      refine ⟨waits_iff.mpr ⟨?_, hsilent⟩, rfl⟩
      have hsame := Function.update_of_ne (hother t hidle) readFrame s.rest
      rw [← hsame] at hread
      exact hread
  | @run t ok n _ hran =>
      have hu := ne_of_waits hwait hran
      obtain ⟨⟨code, hput⟩, -⟩ := ran_rest hran
      refine ⟨waits_iff.mpr ⟨?_, ?_⟩, h.wire_ran hran hu hread⟩
      · rw [hput, Function.update_of_ne hu]
        exact hread
      · rw [h.silent_ran hran hu hread]
        exact hsilent
  | arrive => exact ha.elim
  | hangUp => exact ha.elim

/-- **Waiting blocks the connection.**  While a task waits for bytes of the peer and none come,
nothing is written, whatever the tasks do. -/
theorem waiting_blocks (h : Orderly e c s) (hwait : s.waits u = true)
    (hrun : Runs (step e) NoArrival s s') : s'.waits u = true ∧ s'.wire = s.wire := by
  have hall : Orderly e c s' ∧ s'.waits u = true ∧ s'.wire = s.wire := by
    refine hrun.invariant (I := fun r => Orderly e c r ∧ r.waits u = true ∧ r.wire = s.wire)
      ⟨h, hwait, rfl⟩ ?_
    rintro r a r' ⟨hr, hrwait, hrwire⟩ ha hstep
    obtain ⟨hwait', hwire'⟩ := hr.waits_step hrwait ha hstep
    exact ⟨hr.step hstep, hwait', hwire'.trans hrwire⟩
  exact hall.2

/-! ## Two peers -/

/-- Two connections; a move is one of the first or of the second. -/
def peersStep (e : Env) (p : System ι × System ι) : Bool × Act ι → Option (System ι × System ι)
  | (false, a) => (p.1.step e a).map fun s => (s, p.2)
  | (true, a) => (p.2.step e a).map fun s => (p.1, s)

/-- What arrives at one has been written by the other, and neither ends the stream. -/
def Linked (p : System ι × System ι) : Bool × Act ι → Prop
  | (false, .arrive _) => p.2.wire ≠ []
  | (true, .arrive _) => p.1.wire ≠ []
  | (_, .hangUp) => False
  | _ => True

/-- The connection has a task that waits, and has written nothing. -/
def Mute (e : Env) (c : Connection) (s : System ι) : Prop :=
  Orderly e c s ∧ (∃ u, s.waits u = true) ∧ s.wire = []

lemma Mute.step {a : Act ι} (h : Mute e c s) (ha : s.NoArrival a) (hstep : s.step e a = some s') :
    Mute e c s' := by
  obtain ⟨horderly, ⟨u, hwait⟩, hwire⟩ := h
  obtain ⟨hwait', hwire'⟩ := horderly.waits_step hwait ha hstep
  exact ⟨horderly.step hstep, ⟨u, hwait'⟩, hwire'.trans hwire⟩

/-- **Two peers that wait for each other** never write anything. -/
theorem peers_block {c₁ c₂ : Connection} {p p' : System ι × System ι} (h₁ : Mute e c₁ p.1)
    (h₂ : Mute e c₂ p.2) (hrun : Runs (peersStep e) Linked p p') :
    p'.1.wire = [] ∧ p'.2.wire = [] := by
  have hmute : Mute e c₁ p'.1 ∧ Mute e c₂ p'.2 := by
    refine hrun.invariant (I := fun q => Mute e c₁ q.1 ∧ Mute e c₂ q.2) ⟨h₁, h₂⟩ ?_
    rintro q ⟨side, a⟩ q' ⟨hq₁, hq₂⟩ hlinked hstep
    cases side with
    | false =>
        obtain ⟨s, hs, rfl⟩ := Option.map_eq_some_iff.mp hstep
        have ha : q.1.NoArrival a := by
          cases a with
          | arrive event => exact hlinked hq₂.2.2
          | hangUp => exact hlinked
          | _ => trivial
        exact ⟨hq₁.step ha hs, hq₂⟩
    | true =>
        obtain ⟨s, hs, rfl⟩ := Option.map_eq_some_iff.mp hstep
        have ha : q.2.NoArrival a := by
          cases a with
          | arrive event => exact hlinked hq₁.2.2
          | hangUp => exact hlinked
          | _ => trivial
        exact ⟨hq₁, hq₂.step ha hs⟩
  exact ⟨hmute.1.2.2, hmute.2.2.2⟩

/-! ## Taking turns -/

/-- The task is about to take `stream` for a read that will wait. -/
def beginsToWait (s : System ι) (t : ι) : Bool :=
  match s.rest t with
  | .lock .stream :: rest => atRead rest && s.silent
  | _ => false

/-- No sending call begins while a read waits, and no read begins to wait while a sending call has
its frame still to send. -/
def Alternating (s : System ι) : Act ι → Prop
  | .send _ _ => ∀ u, s.waits u = false
  | .run t _ _ => s.beginsToWait t = true →
      ∀ u, s.reading u = false → pending (s.rest u) = none
  | _ => True

/-- An operation of a sending call. -/
def isSending : Op Mutex Action → Bool
  | .lock m | .unlock m => m = .stream ∨ m = .outbound ∨ m = .permessageDeflate ∨ m = .isOpen
  | .act (.compress _) | .act (.build _) | .act (.write _ _) | .act .flush | .act .clearOpen => true
  | .act _ => false

/-- No task waits while a sending call has its frame still to send. -/
structure Apart (e : Env) (c : Connection) (s : System ι) : Prop extends Orderly e c s where
  senders : ∀ t, s.reading t = false → ∀ op ∈ s.rest t, isSending op = true
  apart : ∀ u, s.waits u = true → ∀ t, s.reading t = false → pending (s.rest t) = none

/-- What a sending call goes on with is a sending call. -/
lemma Apart.senders_ran (h : Apart e c s) (hran : Ran e s t ok s') (hreading : s.reading t = false)
    (op : Op Mutex Action) (hop : op ∈ s'.rest t) : isSending op = true := by
  have hsenders := h.senders t hreading
  -- most operations leave a part of what there was
  have hsub : ∀ code rest : Code, ∀ op₁, s'.rest t = code → s.rest t = op₁ :: rest →
      (∀ op ∈ code, op ∈ rest) → isSending op = true := by
    intro code rest op₁ hcode hrest hsub
    apply hsenders
    rw [hrest]
    rw [hcode] at hop
    exact List.mem_cons_of_mem _ (hsub op hop)
  cases hran with
  | lock hrest hfree => exact hsub _ _ _ (Function.update_self _ _ _) hrest fun _ h => h
  | unlock hrest => exact hsub _ _ _ (Function.update_self _ _ _) hrest fun _ h => h
  | @turn a rest hrest ha hwait =>
      have hact := hsenders (.act a) (by rw [hrest]; exact List.mem_cons_self)
      cases a with
      | build job => exact hsub _ _ _ (Function.update_self _ _ _) hrest fun _ h => h
      | flush => exact hsub _ _ _ (Function.update_self _ _ _) hrest fun _ h => h
      | clearOpen => exact hsub _ _ _ (Function.update_self _ _ _) hrest fun _ h => h
      | compress job => simp at ha
      | write job written => simp at ha
      | _ => simp [isSending] at hact
  | @compress job rest hrest hframe =>
      -- but compression puts the sending of the frame in front
      obtain ⟨rfl, -⟩ := h.continues_compressed hrest hframe
      have hmem : op ∈ sendFrameInto job ++ [] := by
        rw [← Function.update_self t (sendFrameInto job ++ []) s.rest]
        exact hop
      simp only [sendFrameInto, sendRaw, List.append_nil, List.cons_append, List.nil_append,
        List.mem_cons, List.not_mem_nil, or_false] at hmem
      rcases hmem with rfl | rfl | rfl | rfl | rfl | rfl | rfl <;> rfl
  | uncompressed hrest hframe => exact hsub _ _ _ (Function.update_self _ _ _) hrest fun _ h => h
  | @part job written rest piece hrest hpiece hlt =>
      have hmem : op ∈ .act (.write job (written + piece.length)) :: rest := by
        rw [← Function.update_self t (.act (.write job (written + piece.length)) :: rest) s.rest]
        exact hop
      rcases List.mem_cons.mp hmem with rfl | hmem
      · rfl
      · exact hsenders op (by rw [hrest]; exact List.mem_cons_of_mem _ hmem)
  | last hrest => exact hsub _ _ _ (Function.update_self _ _ _) hrest fun _ h => h
  | fail hrest hok hread =>
      exact hsub _ _ _ (Function.update_self _ _ _) hrest fun _ h => mem_of_mem_unwind h

/-- A sending call that has sent its frame sends no other. -/
lemma Apart.pending_ran (h : Apart e c s) (hran : Ran e s t ok s') (hreading : s.reading t = false)
    (hnone : pending (s.rest t) = none) : pending (s'.rest t) = none := by
  have hsenders := h.senders t hreading
  have hput : ∀ code : Code, s'.rest = Function.update s.rest t code → pending code = none →
      pending (s'.rest t) = none := by
    intro code hcode hpending
    rw [hcode, Function.update_self]
    exact hpending
  cases hran with
  | lock hrest hfree =>
      rw [hrest] at hnone
      exact hput _ rfl hnone
  | unlock hrest =>
      rw [hrest] at hnone
      exact hput _ rfl hnone
  | @turn a rest hrest ha hwait =>
      have hact := hsenders (.act a) (by rw [hrest]; exact List.mem_cons_self)
      rw [hrest, pending, ha] at hnone
      cases a with
      | build job => exact hput rest rfl hnone
      | flush => exact hput rest rfl hnone
      | clearOpen => exact hput rest rfl hnone
      | compress job => simp at ha
      | write job written => simp at ha
      | _ => simp [isSending] at hact
  | compress hrest hframe => simp [hrest] at hnone
  | uncompressed hrest hframe => simp [hrest] at hnone
  | part hrest hpiece hlt => simp [hrest] at hnone
  | last hrest => simp [hrest] at hnone
  | fail hrest hok hread => exact hput _ rfl (pending_unwind _)

omit [DecidableEq ι] in
/-- Of the mutexes that a waiting task holds, a sender needs only `stream`, to send its frame. -/
lemma Apart.not_starved (h : Apart e c s) : ¬s.Starved := by
  rintro ⟨t, m, rest, u, hreading, hrest, howner, hwait⟩
  have hread := (waits_iff.mp hwait).1
  have hnone := h.apart u hwait t hreading
  have hsenders := h.senders t hreading
  have hsound := h.sound t
  rw [hrest] at hnone hsenders hsound
  -- of the mutexes that a reading task holds, a sender takes only `stream`
  have hm := (h.holds_of_atRead hread m).mp ((h.owned m u).mp howner)
  have hlock := hsenders (.lock m) List.mem_cons_self
  obtain rfl : m = .stream := by
    rcases hm with rfl | rfl | rfl
    · rfl
    · simp [isSending] at hlock
    · simp [isSending] at hlock
  rcases (sound_lock.mp hsound).1.2.2.2 with hsome | hat
  · rw [pending] at hnone
    simp [hnone] at hsome
  · cases rest with
    | nil => simp at hat
    | cons op rest =>
        have hop := hsenders op (by simp)
        cases op with
        | act a => cases a <;> simp [isSending] at hop hat
        | lock m => simp at hat
        | unlock m => simp at hat

/-- A task's next operation. -/
lemma Apart.ran (h : Apart e c s) (hran : Ran e s t ok s')
    (hwait : s.beginsToWait t = true → ∀ u, s.reading u = false → pending (s.rest u) = none) :
    Apart e c s' := by
  obtain ⟨⟨code, hput⟩, hreading⟩ := ran_rest hran
  have hother : ∀ u, u ≠ t → s'.rest u = s.rest u := by
    intro u hu
    rw [hput, Function.update_of_ne hu]
  refine ⟨h.toOrderly.ran hran, fun u hu op hop => ?_, fun u hu t₂ ht₂ => ?_⟩
  · rw [hreading] at hu
    by_cases hut : u = t
    · subst hut
      exact h.senders_ran hran hu op hop
    · rw [hother u hut] at hop
      exact h.senders u hu op hop
  · rw [hreading] at ht₂
    obtain ⟨hread, hsilent⟩ := waits_iff.mp hu
    have hnone : pending (s.rest t₂) = none := by
      by_cases hut : u = t
      · -- the task has just taken `stream`
        subst hut
        obtain ⟨rest, hrest, hrest', hsame⟩ := h.toOrderly.atRead_ran hran hread
        apply hwait _ t₂ ht₂
        unfold beginsToWait
        rw [hrest]
        show (atRead rest && s.silent) = true
        rw [← hrest', hread, ← hsame, hsilent]
        rfl
      · rw [hother u hut] at hread
        rw [h.toOrderly.silent_ran hran hut hread] at hsilent
        exact h.apart u (waits_iff.mpr ⟨hread, hsilent⟩) t₂ ht₂
    by_cases ht : t₂ = t
    · subst ht
      exact h.pending_ran hran ht₂ hnone
    · rw [hother t₂ ht]
      exact hnone

lemma isSending_program {job : Job} {op : Op Mutex Action} (h : op ∈ job.program ++ []) :
    isSending op = true := by
  unfold Job.program at h
  cases hcall : job.call <;>
    simp only [hcall, sendFrameInto, sendRaw, loadDeflate, clearOpen, List.cons_append,
      List.nil_append, List.append_nil, List.mem_cons, List.not_mem_nil, or_false] at h
  all_goals
    revert h
    simp +contextual [or_imp, isSending]

lemma Apart.step {a : Act ι} (h : Apart e c s) (ha : s.Alternating a)
    (hstep : s.step e a = some s') : Apart e c s' := by
  have horderly := h.toOrderly.step hstep
  cases stepped_of_step hstep with
  | @send t call hidle =>
      have hcode : Continues e c [] (Job.program ⟨call, e.keys s.conn.writes⟩ ++ []) :=
        continues_program _
      refine ⟨horderly, fun u hu op hop => ?_, fun u hu => ?_⟩
      · simp only [follow, put, Turn.code, List.nil_append] at hop hu
        by_cases hut : u = t
        · subst hut
          rw [Function.update_self] at hop
          exact isSending_program hop
        · rw [Function.update_of_ne hut] at hop hu
          exact h.senders u hu op hop
      · -- nobody waits
        obtain ⟨hread, hsilent⟩ := waits_iff.mp hu
        simp only [follow, put, Turn.code, List.nil_append] at hread
        by_cases hut : u = t
        · subst hut
          rw [Function.update_self, hcode.atRead_eq] at hread
          simp at hread
        · rw [Function.update_of_ne hut] at hread
          have hwait : s.waits u = true := waits_iff.mpr ⟨hread, hsilent⟩
          rw [ha u] at hwait
          simp at hwait
  | @read t hidle =>
      refine ⟨horderly, fun u hu op hop => ?_, fun u hu t₂ ht₂ => ?_⟩
      · simp only [put] at hop hu
        by_cases hut : u = t
        · subst hut
          simp at hu
        · rw [Function.update_of_ne hut] at hop hu
          exact h.senders u hu op hop
      · obtain ⟨hread, hsilent⟩ := waits_iff.mp hu
        simp only [put] at hread ht₂ ⊢
        have ht : t₂ ≠ t := by
          rintro rfl
          simp at ht₂
        rw [Function.update_of_ne ht] at ht₂ ⊢
        by_cases hut : u = t
        · subst hut
          rw [Function.update_self, rear_readFrame.atRead_eq (e := e) (c := c)] at hread
          simp at hread
        · rw [Function.update_of_ne hut] at hread
          exact h.apart u (waits_iff.mpr ⟨hread, hsilent⟩) t₂ ht₂
  | run hran => exact h.ran hran ha
  | arrive => exact ⟨horderly, h.senders, fun u hu => by simp [waits, silent] at hu⟩
  | hangUp => exact ⟨horderly, h.senders, fun u hu => by simp [waits, silent] at hu⟩

omit [DecidableEq ι] in
lemma apart_opened : Apart e c (opened c : System ι) where
  toOrderly := orderly_opened
  senders := by
    intro t _ op hop
    simp [opened] at hop
  apart := fun _ _ _ _ => rfl

variable (e) in
/-- **Full duplex, in turns.**  In every run in which no sending call begins while a read waits, and
no read begins to wait while a sending call has its frame still to send, no sender ever waits for a
mutex whose holder waits for bytes of the peer. -/
theorem duplex_when_alternating (c : Connection) (s : System ι)
    (hrun : Runs (System.step e) Alternating (opened c) s) : ¬s.Starved := by
  have hapart : Apart e c s :=
    hrun.invariant apart_opened fun s a s' h ha hstep => h.step ha hstep
  exact hapart.not_starved

instance (s : System Bool) : (a : Act Bool) → Decidable (s.Alternating a)
  | .send _ _ => inferInstanceAs (Decidable (∀ u, s.waits u = false))
  | .run t _ _ => inferInstanceAs (Decidable (s.beginsToWait t = true →
      ∀ u, s.reading u = false → pending (s.rest u) = none))
  | .read _ | .arrive _ | .hangUp => inferInstanceAs (Decidable True)

/-- Of two tasks, the first is about to take `stream` to send a frame, and the second holds it in
`stream.read`. -/
def queued (s : System Bool) : Bool :=
  (match s.rest false with
    | .lock .stream :: _ => !s.reading false
    | _ => false) && s.owner .stream == some true && atRead (s.rest true)

lemma starved_of_queued {s : System Bool} (h : s.queued = true) (hsilent : s.silent = true) :
    s.Starved := by
  simp only [queued, Bool.and_eq_true, beq_iff_eq] at h
  obtain ⟨⟨hfirst, howner⟩, hread⟩ := h
  split at hfirst
  · rename_i rest hrest
    exact ⟨false, .stream, rest, true, by simpa using hfirst, hrest, howner,
      waits_iff.mpr ⟨hread, hsilent⟩⟩
  · simp at hfirst

end System

/-- The second task calls `read_message` and waits in `stream.read`. -/
def readAndWait : List (Act Bool) := .read true :: runs true 7

/-- The first task calls `send_text` and comes to `stream`. -/
def sendAndWait : List (Act Bool) := .send false (.text "a" true) :: runs false 5

/-- The bytes that arrive before the call of `send_text` let it go on. -/
theorem duplex_when_alternating_arrival :
    ∃ s : System Bool,
      play (System.step Connection.plainEnv) (.opened (.new [] .client false))
        (readAndWait ++ .arrive (.data pingBytes) :: sendAndWait) = some s ∧
      s.queued = true ∧ ¬s.Starved := by
  have hplay : (play (System.step Connection.plainEnv) (.opened (.new [] .client false))
      (readAndWait ++ .arrive (.data pingBytes) :: sendAndWait)).map System.queued = some true := by
    decide +kernel
  obtain ⟨s, hs, hqueued⟩ := Option.map_eq_some_iff.mp hplay
  have hrun : Runs (System.step Connection.plainEnv) System.Alternating
      (.opened (.new [] .client false)) s :=
    runs_of_play (D := fun s a => decide (s.Alternating a)) _ (fun s a h => of_decide_eq_true h) _
      hs (by decide +kernel)
  exact ⟨s, hs, hqueued, System.duplex_when_alternating _ _ s hrun⟩

/-- Without them, the task waits for the peer. -/
lemma starved_of_role (role : Role) :
    ∃ s : System Bool,
      play (System.step Connection.plainEnv) (.opened (.new [] role false))
        (readAndWait ++ sendAndWait) = some s ∧
      s.Starved ∧ System.Mute Connection.plainEnv (.new [] role false) s := by
  have hplay : (play (System.step Connection.plainEnv) (.opened (.new [] role false))
      (readAndWait ++ sendAndWait)).map (fun s => (s.queued, s.silent, s.waits true, s.wire)) =
        some (true, true, true, []) := by
    cases role <;> decide +kernel
  obtain ⟨s, hs, hsummary⟩ := Option.map_eq_some_iff.mp hplay
  simp only [Prod.mk.injEq] at hsummary
  obtain ⟨hqueued, hsilent, hwait, hwire⟩ := hsummary
  refine ⟨s, hs, System.starved_of_queued hqueued hsilent, ?_, ⟨true, hwait⟩, hwire⟩
  have hrun : Runs (System.step Connection.plainEnv) (fun _ _ => True)
      (.opened (.new [] role false)) s :=
    runs_of_play (D := fun _ _ => true) _ (fun _ _ _ => trivial) _ hs
      (by cases role <;> decide +kernel)
  exact hrun.invariant System.orderly_opened fun s a s' h _ hstep => h.step hstep

/-- **A sender waits for a reader that waits for the peer**, and two peers that both read block each
other: once both are in this state, neither ever writes a byte. -/
theorem duplex_starved :
    ∃ s₁ s₂ : System Bool,
      play (System.step Connection.plainEnv) (.opened (.new [] .client false))
        (readAndWait ++ sendAndWait) = some s₁ ∧
      play (System.step Connection.plainEnv) (.opened (.new [] .server false))
        (readAndWait ++ sendAndWait) = some s₂ ∧
      s₁.Starved ∧ s₂.Starved ∧
      ∀ p, Runs (System.peersStep Connection.plainEnv) System.Linked (s₁, s₂) p →
        p.1.wire = [] ∧ p.2.wire = [] := by
  obtain ⟨s₁, hs₁, hstarved₁, hmute₁⟩ := starved_of_role .client
  obtain ⟨s₂, hs₂, hstarved₂, hmute₂⟩ := starved_of_role .server
  exact ⟨s₁, s₂, hs₁, hs₂, hstarved₁, hstarved₂, fun p hrun =>
    System.peers_block hmute₁ hmute₂ hrun⟩

end Wscpp.Rs.Threads
