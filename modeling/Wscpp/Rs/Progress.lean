import Wscpp.Lib.Waiting
import Wscpp.Rs.Duplex

/-!
# No task of a ws-rs connection is stuck for ever

The methods of a `Connection` take up to three mutexes, one inside the other: `read_message` fails a
message while it holds `fragment`, and the failure takes `outbound` and then `stream`; `read_frame`
holds `read_state` and `parser` when it takes `stream`.  The order is always the same (`rank`), so
tasks never wait in a circle.  `never_deadlocked` says what a task waits for in the end: for one
that can go on, a task that writes among them, or for the one that is in `stream.read` while the
peer is silent.

Nor do they go on for ever.  A call has only so much left to do (`cost`), and what makes a call of
`read_message` begin another turn is a frame or a read that is then used up.  So the steps of the
calls that are in progress come to an end, whatever their order (`calls_return`).

Where they stop is another question, since a peer that does not read keeps a write waiting:
`write_all` is awaited with `stream` held (`writing`).  Once the peer has ended its half of the
stream no read waits any more, and the tasks stop with all calls returned, or at a task that waits
there for the peer to take its bytes.  That the calls return after the end of the stream is thus a
matter of the transport taking what is written, and no more than that.
-/

namespace Wscpp.Rs.Threads

open Moves Locks

/-! ## The order of the mutexes -/

/-- The mutexes. -/
def Mutex.all : List Mutex :=
  [.stream, .parser, .isOpen, .permessageDeflate, .outbound, .fragment, .lastClose, .readState]

lemma Mutex.mem_all (m : Mutex) : m ∈ Mutex.all := by
  cases m <;> decide

/-- The order in which the methods take them. -/
def Mutex.rank : Mutex → ℕ
  | fragment => 0
  | readState => 0
  | parser => 1
  | outbound => 1
  | stream => 2
  | isOpen => 2
  | permessageDeflate => 2
  | lastClose => 2

lemma Mutex.rank_le (m : Mutex) : m.rank ≤ 2 := by
  cases m <;> decide

section Places

variable {e : Env} {c c₀ : Connection} {rest code : Code} {a : Action} {key : Key}

lemma ranked_of_eq (h : rankedIn Mutex.all Mutex.rank code = true) : Ranked Mutex.rank code :=
  ranked_of_rankedIn Mutex.mem_all h

lemma ranked_program (job : Job) : Ranked Mutex.rank (job.program ++ []) := by
  obtain ⟨call, key⟩ := job
  cases call with
  | _ => exact ranked_of_eq rfl

lemma ranked_deliverPlain (hrest : rest = [] ∨ rest = [.unlock .fragment]) (opcode : Opcode)
    (plain : List UInt8) :
    Ranked Mutex.rank ((Action.deliverPlain rest opcode plain).code key) := by
  unfold Action.deliverPlain
  split
  · rcases hrest with rfl | rfl
    · exact ranked_of_eq rfl
    · exact ranked_of_eq rfl
  · rcases hrest with rfl | rfl
    · exact ranked_of_eq rfl
    · exact ranked_of_eq rfl

/-- **How a task goes on** keeps the order. -/
lemma Sound.ranked_turn (h : Sound e c₀ (.act a :: rest)) (ha : a.job = none)
    (hranked : Ranked Mutex.rank (.act a :: rest)) (key : Key) :
    Ranked Mutex.rank ((a.turn e c rest).2.code key) := by
  -- what is behind the action is known, so that the order can be checked by computation
  have hfits := (sound_act.mp h).1.2.2
  have hrest : Ranked Mutex.rank rest := ranked_act.mp hranked
  cases a with
  | testOpen =>
      obtain rfl : rest = _ := hfits
      simp only [Action.turn]
      split
      · exact ranked_of_eq rfl
      · exact ranked_of_eq rfl
  | parse =>
      obtain rfl : rest = _ := hfits
      simp only [Action.turn]
      split
      · split
        · exact ranked_of_eq rfl
        · exact ranked_of_eq rfl
      · exact ranked_of_eq rfl
      · exact ranked_of_eq rfl
  | read =>
      obtain rfl : rest = _ := hfits
      simp only [Action.turn]
      split
      · exact ranked_of_eq rfl
      · exact ranked_of_eq rfl
      · exact ranked_of_eq rfl
  | handle frame =>
      obtain rfl : rest = _ := hfits
      simp only [Action.turn, Action.handleFrame]
      split
      · exact ranked_of_eq rfl
      · exact ranked_of_eq rfl
      · exact ranked_of_eq rfl
      · exact ranked_of_eq rfl
      · exact ranked_of_eq rfl
      · exact ranked_of_eq rfl
  | continuation payload fin =>
      obtain rfl : rest = _ := hfits
      simp only [Action.turn]
      split
      · exact ranked_of_eq rfl
      · split
        · exact ranked_of_eq rfl
        · exact ranked_of_eq rfl
  | data opcode frame =>
      obtain rfl : rest = _ := hfits
      simp only [Action.turn]
      split
      · exact ranked_of_eq rfl
      · split
        · exact ranked_of_eq rfl
        · exact ranked_of_eq rfl
  | deliver opcode payload compressed =>
      simp only [Action.turn]
      split
      · split
        · -- behind a delivery there is the rest of one frame, or of its continuation
          rcases hfits with rfl | rfl
          · exact ranked_of_eq rfl
          · exact ranked_of_eq rfl
        · split
          · exact hrest
          · exact ranked_deliverPlain hfits opcode _
      · exact ranked_deliverPlain hfits opcode payload
  | setLastClose code reason => exact hrest
  | build job => exact hrest
  | flush => exact hrest
  | clearOpen => exact hrest
  | compress job => simp at ha
  | write job written => simp at ha

end Places

namespace System

variable {ι : Type} [DecidableEq ι] {e : Env} {c : Connection} {s s' : System ι} {t u : ι}
  {ok : Bool}

/-- Every program takes the mutexes in their order. -/
structure InOrder (e : Env) (c : Connection) (s : System ι) : Prop extends Orderly e c s where
  ranked : ∀ t, Ranked Mutex.rank (s.rest t)

omit [DecidableEq ι] in
lemma inOrder_opened : InOrder e c (opened c : System ι) :=
  ⟨orderly_opened, fun _ => ranked_nil⟩

lemma ranked_update {rest : ι → Code} {code : Code} (h : ∀ t, Ranked Mutex.rank (rest t))
    (hcode : Ranked Mutex.rank code) (u : ι) :
    Ranked Mutex.rank (Function.update rest t code u) := by
  by_cases hu : u = t
  · subst hu
    rw [Function.update_self]
    exact hcode
  · rw [Function.update_of_ne hu]
    exact h u

/-- A task's next operation. -/
lemma InOrder.ran (h : InOrder e c s) (hran : Ran e s t ok s') : InOrder e c s' := by
  refine ⟨h.toOrderly.ran hran, ?_⟩
  have hsound := h.sound t
  have hranked := h.ranked t
  cases hran with
  | lock hrest hfree =>
      rw [hrest, ranked_lock] at hranked
      exact ranked_update h.ranked hranked.2
  | unlock hrest =>
      rw [hrest, ranked_unlock] at hranked
      exact ranked_update h.ranked hranked
  | @turn a rest hrest ha hread =>
      rw [hrest] at hsound hranked
      exact ranked_update h.ranked (hsound.ranked_turn ha hranked _)
  | compress hrest hframe =>
      obtain ⟨rfl, -⟩ := h.continues_compressed hrest hframe
      exact ranked_update h.ranked (ranked_of_eq rfl)
  | uncompressed hrest hframe =>
      rw [hrest, ranked_act] at hranked
      exact ranked_update h.ranked hranked
  | part hrest hpiece hlt =>
      rw [hrest, ranked_act] at hranked
      exact ranked_update h.ranked (ranked_act.mpr hranked)
  | last hrest =>
      rw [hrest, ranked_act] at hranked
      exact ranked_update h.ranked hranked
  | fail hrest hok hread => exact ranked_update h.ranked (ranked_unwind _ _)

/-- **Every run keeps the order.** -/
lemma InOrder.step {a : Act ι} (h : InOrder e c s) (hstep : s.step e a = some s') :
    InOrder e c s' := by
  have horderly := h.toOrderly.step hstep
  cases stepped_of_step hstep with
  | send hidle => exact ⟨horderly, ranked_update h.ranked (ranked_program _)⟩
  | read hidle => exact ⟨horderly, ranked_update h.ranked (ranked_of_eq rfl)⟩
  | run hran => exact h.ran hran
  | arrive => exact ⟨horderly, h.ranked⟩
  | hangUp => exact ⟨horderly, h.ranked⟩

/-! ## Tasks that can go on -/

/-- The task can do its next operation, if the peer takes what is written: no other task keeps it
from it. -/
def CanRun (e : Env) (s : System ι) (t : ι) : Prop := ∃ n, (s.run e t true n).isSome = true

/-- A task that does not wait for a mutex can go on, unless it waits for the peer. -/
lemma canRun_of_unblocked (hfree : Unblocked s.owner s.rest t) (hrest : s.rest t ≠ []) :
    s.waits t = true ∨ CanRun e s t := by
  rcases hcode : s.rest t with _ | ⟨op, rest⟩
  · exact absurd hcode hrest
  cases op with
  | lock m =>
      have hnone := hfree m rest hcode
      exact .inr ⟨0, by rw [run, hcode]; simp only [hnone]; rfl⟩
  | unlock m => exact .inr ⟨0, by rw [run, hcode]; rfl⟩
  | act a =>
      cases a with
      | read =>
          cases hsilent : s.silent with
          | true =>
              left
              rw [waits_iff, hcode]
              exact ⟨rfl, hsilent⟩
          | false => exact .inr ⟨0, by rw [run, hcode]; simp only [perform, hsilent]; rfl⟩
      | write job written =>
          have hwhole : (job.buffer s.conn).length ≤ written +
              (((job.buffer s.conn).drop written).take (job.buffer s.conn).length).length := by
            rw [List.length_take, List.length_drop]
            omega
          refine .inr ⟨(job.buffer s.conn).length, ?_⟩
          rw [run, hcode]
          simp only [perform, if_true, System.write, if_pos hwhole]
          rfl
      | _ => exact .inr ⟨0, by rw [run, hcode]; rfl⟩

/-- The tasks that wait for one another end at one that does not wait for a mutex. -/
lemma InOrder.exists_canRun (h : InOrder e c s) (ht : s.rest t ≠ []) :
    ∃ u, Relation.ReflTransGen (WaitsFor s.owner s.rest) t u ∧
      (s.waits u = true ∨ CanRun e s u) := by
  obtain ⟨u, hchain, hfree, hrest⟩ := h.owned.exists_unblocked h.ranked Mutex.rank_le ht
  exact ⟨u, hchain, canRun_of_unblocked hfree hrest⟩

lemma inOrder_of_runs (hrun : Runs (System.step e) (fun _ _ => True) (opened c) s) :
    InOrder e c s :=
  hrun.invariant inOrder_opened fun _ _ _ h _ hstep => h.step hstep

/-- **No task is stuck.**  Whatever calls are made on a connection and however their steps are
interleaved, what a task in a call waits for is in the end a task that can go on, or one that waits
for bytes from the peer. -/
theorem never_deadlocked (c : Connection) (s : System ι)
    (hrun : Runs (System.step e) (fun _ _ => True) (opened c) s) (t : ι) (ht : s.rest t ≠ []) :
    ∃ u, Relation.ReflTransGen (WaitsFor s.owner s.rest) t u ∧
      (s.waits u = true ∨ CanRun e s u) :=
  (inOrder_of_runs hrun).exists_canRun ht

/-- The task that sends waits for the one that reads. -/
theorem never_deadlocked_queued :
    ∃ s : System Bool,
      play (System.step Connection.plainEnv) (opened (.new [] .client false))
        (readAndWait ++ sendAndWait) = some s ∧
      s.queued = true ∧
      ∃ u, Relation.ReflTransGen (WaitsFor s.owner s.rest) false u ∧
        (s.waits u = true ∨ CanRun Connection.plainEnv s u) := by
  have hplay : (play (System.step Connection.plainEnv) (opened (.new [] .client false))
      (readAndWait ++ sendAndWait)).map
        (fun s : System Bool => (s.queued, (s.rest false).isEmpty)) = some (true, false) := by
    decide +kernel
  obtain ⟨s, hs, hsummary⟩ := Option.map_eq_some_iff.mp hplay
  simp only [Prod.mk.injEq, List.isEmpty_eq_false_iff] at hsummary
  have hrun : Runs (System.step Connection.plainEnv) (fun _ _ => True)
      (opened (.new [] .client false)) s :=
    runs_of_play (D := fun _ _ => true) _ (fun _ _ _ => trivial) _ hs (by decide +kernel)
  exact ⟨s, hs, hsummary.1, never_deadlocked _ s hrun false hsummary.2⟩

end System

/-! ## What is left to do -/

/-- A bound on the operations that an action leads to, itself included. -/
def Action.cost : Action → ℕ
  | testOpen => 20
  | parse => 13
  | read => 8
  | handle _ => 45
  | continuation _ _ => 30
  | data _ _ => 30
  | deliver _ _ _ => 15
  | compress _ => 10
  | setLastClose _ _ | build _ | write _ _ | flush | clearOpen => 1

/-- A bound on what is left of a call until it needs another frame or another read.  What follows
a read is left out: it is paid for by the read. -/
def cost : Code → ℕ
  | [] => 0
  | .act .read :: _ => 8
  | .act a :: rest => a.cost + cost rest
  | .lock _ :: rest => 1 + cost rest
  | .unlock _ :: rest => 1 + cost rest

/-- The bytes that `write_all` has still to write. -/
def unwritten (c : Connection) : Code → ℕ
  | .act (.write job written) :: _ => (job.buffer c).length - written
  | _ => 0

/-- What the connection may still give its readers: frames, and reads. -/
def supply (c : Connection) : ℕ := 60 * (c.todo + c.input.length)

section Cost

variable {e : Env} {c c₀ : Connection} {rest : Code} {a : Action}

/-- An error leaves the parser where it is. -/
lemma state_of_error {bits : ℕ} {p q : Parser} {data : List UInt8} {k : ℕ}
    (h : Parser.sub bits p data = (q, some .error, k)) : q.state = p.state := by
  unfold Parser.sub at h
  split at h
  · rcases data with _ | ⟨x, _ | ⟨y, data⟩⟩
    · simp [Parser.parseHeader] at h
    · simp [Parser.parseHeader] at h
    · simp only [Parser.parseHeader] at h
      split at h
      · simp only [Prod.mk.injEq] at h
        rw [← h.1]
      · split at h <;> simp at h
  · simp only [Parser.parsePayloadLength, Parser.setPayloadLength] at h
    split_ifs at h
    all_goals simp only [Prod.mk.injEq, reduceCtorEq, false_and, and_false] at h
    all_goals rw [← h.1]
  · rcases data with _ | ⟨x, _ | ⟨y, _ | ⟨z, _ | ⟨w, data⟩⟩⟩⟩ <;> simp [Parser.parseMaskingKey] at h
  · simp only [Parser.parsePayload] at h
    split_ifs at h <;> simp at h

/-- What is left to do never grows in a call of the parser, and a frame takes something off it. -/
lemma todo_parseBuffered (e : Env) (c : Connection) :
    (c.parseBuffered e).1.todo ≤ c.todo ∧
      ((c.parseBuffered e).2 = some .complete → (c.parseBuffered e).1.todo < c.todo) := by
  -- what is left of the frame and of the bytes, together, never grows along a run of the parser
  have hrule := Incremental.outcome_rule (Parser.splits e.bits)
    (P := fun s a => s.weight + a.length ≤ c.parser.weight + c.readState.unparsed.length)
    (Q := fun s r a => s.weight + a.length ≤ c.parser.weight + c.readState.unparsed.length)
    (fun s a s' k hle hsub => by
      have heaten : k + 1 ≤ a.length := by
        have := (Parser.splits e.bits).eaten_le s a
        rwa [hsub] at this
      have : s'.weight ≤ 1 := s'.weight_le
      rw [List.length_drop]
      omega)
    (fun s a s' r k hle hsub => by
      have hweight : s'.weight ≤ s.weight := by
        cases r with
        | complete => simp [Parser.weight, Parser.header_of_complete hsub]
        | error => simp [Parser.weight, state_of_error hsub]
      rw [List.length_drop]
      omega)
    (Nat.le_refl _)
  obtain ⟨q, r, k, rs, hpump, hbuf, hrs⟩ := Connection.parseBuffered_eq e c
  have houtcome : Incremental.outcome (Parser.sub e.bits) c.parser c.readState.unparsed =
      (q, r, rs.unparsed) := by
    rw [Incremental.outcome, hpump, hrs]
  rw [hbuf]
  simp only [Connection.todo, Connection.pending, Connection.withRead, List.length_append]
  constructor
  · cases r with
    | none =>
        have := hrule.1 _ _ houtcome
        omega
    | some d =>
        have := hrule.2 _ _ _ houtcome
        omega
  · rintro rfl
    have := Parser.weight_of_outcome houtcome
    omega

lemma todo_completeFrame (c : Connection) : c.completeFrame.1.todo = c.todo := by
  obtain ⟨rs, heq, hrs⟩ := Connection.completeFrame_eq c
  rw [heq]
  simp only [Connection.todo, Connection.pending, Connection.withRead, hrs]
  rfl

lemma todo_compact (c : Connection) : c.compact.todo = c.todo := by
  obtain ⟨rs, heq, hrs, -⟩ := Connection.compact_eq c
  rw [heq]
  simp only [Connection.todo, Connection.pending, Connection.withRead, hrs]

/-- What leaves a call through its guards is paid for. -/
lemma length_unwind_le (h : Sound e c rest) (done : List Mutex) :
    cost (unwind done rest) ≤ cost rest := by
  induction rest generalizing done with
  | nil => exact Nat.le_refl _
  | cons op rest ih =>
      cases op with
      | lock m =>
          have hle := ih (sound_lock.mp h).2 (m :: done)
          rw [unwind, cost]
          omega
      | unlock m =>
          rw [unwind]
          split
          · have hle := ih (sound_unlock.mp h).2 done
            rw [cost]
            omega
          · have hle := ih (sound_unlock.mp h).2 (m :: done)
            rw [cost, cost]
            omega
      | act a =>
          have hle := ih (sound_act.mp h).2 done
          cases a with
          | read =>
              obtain rfl : rest = _ := (sound_act.mp h).1.2.2
              simp only [unwind]
              split_ifs <;> simp [cost]
          | _ =>
              rw [unwind, cost]
              · omega
              · simp

lemma cost_deliverPlain (key : Key) (hrest : rest = [] ∨ rest = [.unlock .fragment])
    (opcode : Opcode) (plain : List UInt8) :
    cost ((Action.deliverPlain rest opcode plain).code key) < 15 + cost rest := by
  unfold Action.deliverPlain
  split
  · rcases hrest with rfl | rfl
    · exact Nat.le_of_ble_eq_true rfl
    · exact Nat.le_of_ble_eq_true rfl
  · rcases hrest with rfl | rfl
    · exact Nat.le_of_ble_eq_true rfl
    · exact Nat.le_of_ble_eq_true rfl

lemma lt_of_supply_eq {code code' : Code} {c' : Connection} (hcost : cost code' < cost code)
    (htodo : c'.todo = c.todo) (hinput : c'.input = c.input) :
    cost code' + supply c' < cost code + supply c := by
  rw [supply, supply, htodo, hinput]
  omega

/-- **A call of the parser** ends in a frame that is paid for, in a failure, or in a read. -/
lemma cost_parse (e : Env) (c : Connection) (key : Key) :
    cost ((Action.parse.turn e c [.unlock .parser, .unlock .readState]).2.code key) +
        supply (Action.parse.turn e c [.unlock .parser, .unlock .readState]).1 <
      cost [.act .parse, .unlock .parser, .unlock .readState] + supply c := by
  have htodo := todo_parseBuffered e c
  have hinput := (keeps_parse e c [.unlock .parser, .unlock .readState]).input
  have hold : cost [.act .parse, .unlock .parser, .unlock .readState] = 15 := rfl
  rw [hold, supply, supply, hinput]
  simp only [Action.turn]
  split
  · rename_i c₁ heq
    rw [heq] at htodo
    -- a frame: it has taken something off what there is to read
    have hlt := htodo.2 rfl
    have hsame := todo_completeFrame c₁
    split
    · rename_i c₂ frame heq₂
      rw [heq₂] at hsame
      have hnew : cost ((Turn.go (loadDeflate ++ [.unlock .parser, .unlock .readState] ++
          [.act (.handle frame)])).code key) = 49 := rfl
      simp only at hlt hsame ⊢
      omega
    · rename_i c₂ r _ heq₂
      rw [heq₂] at hsame
      have hnew : cost ((Turn.go (loadDeflate ++ [.unlock .parser, .unlock .readState])).code
          key) = 4 := rfl
      simp only at hlt hsame ⊢
      omega
  · rename_i c₁ heq
    rw [heq] at htodo
    have hnew : cost ((Turn.answer (.close 1002 "invalid frame")
        [.unlock .parser, .unlock .readState] []).code key) = 12 := rfl
    -- a failure, which ends the session
    have hle := htodo.1
    simp only at hle ⊢
    omega
  · rename_i c₁ heq
    rw [heq] at htodo
    -- nothing yet, so the task goes to read
    have hsame := todo_compact c₁
    have hnew : cost ((Turn.go ([.lock .stream, .act .read, .unlock .stream, .act .parse] ++
        [.unlock .parser, .unlock .readState])).code key) = 9 := rfl
    have hle := htodo.1
    simp only at hle ⊢
    omega

/-- **A read** is one less, or leaves. -/
lemma cost_read (e : Env) (c : Connection) (key : Key) :
    cost ((Action.read.turn e c
        [.unlock .stream, .act .parse, .unlock .parser, .unlock .readState]).2.code key) +
        supply (Action.read.turn e c
          [.unlock .stream, .act .parse, .unlock .parser, .unlock .readState]).1 <
      cost [.act .read, .unlock .stream, .act .parse, .unlock .parser, .unlock .readState] +
        supply c := by
  simp only [Action.turn]
  split
  · exact lt_of_supply_eq (Nat.le_of_ble_eq_true rfl) rfl rfl
  · rename_i input heq
    have hnew : cost ((Turn.go (unwind []
        [.unlock .stream, .act .parse, .unlock .parser, .unlock .readState])).code key) = 3 := rfl
    have hold : cost [.act .read, .unlock .stream, .act .parse, .unlock .parser,
      .unlock .readState] = 8 := rfl
    simp only [supply, Connection.todo, Connection.pending, heq, inputBytes, List.length_append,
      List.length_cons]
    omega
  · rename_i chunk input heq
    have hnew : cost ((Turn.go
        [.unlock .stream, .act .parse, .unlock .parser, .unlock .readState]).code key) = 16 := rfl
    have hold : cost [.act .read, .unlock .stream, .act .parse, .unlock .parser,
      .unlock .readState] = 8 := rfl
    simp only [supply, Connection.todo, Connection.pending, heq, inputBytes, List.length_append,
      List.length_cons, ReadState.unparsed, List.length_drop]
    omega

/-- **How a task goes on** brings it nearer to its end. -/
lemma Sound.cost_turn (h : Sound e c₀ (.act a :: rest)) (ha : a.job = none) (key : Key) :
    cost ((a.turn e c rest).2.code key) + supply (a.turn e c rest).1 <
      cost (.act a :: rest) + supply c := by
  -- the costs of the programs are numbers, so most cases are comparisons of two of them
  have hfits := (sound_act.mp h).1.2.2
  cases a with
  | testOpen =>
      obtain rfl : rest = _ := hfits
      simp only [Action.turn]
      split
      · exact lt_of_supply_eq (Nat.le_of_ble_eq_true rfl) rfl rfl
      · exact lt_of_supply_eq (Nat.le_of_ble_eq_true rfl) rfl rfl
  | parse =>
      obtain rfl : rest = _ := hfits
      exact cost_parse e c key
  | read =>
      obtain rfl : rest = _ := hfits
      exact cost_read e c key
  | handle frame =>
      obtain rfl : rest = _ := hfits
      refine lt_of_supply_eq ?_ rfl rfl
      simp only [Action.turn, Action.handleFrame]
      split
      · exact Nat.le_of_ble_eq_true rfl
      · exact Nat.le_of_ble_eq_true rfl
      · exact Nat.le_of_ble_eq_true rfl
      · exact Nat.le_of_ble_eq_true rfl
      · exact Nat.le_of_ble_eq_true rfl
      · exact Nat.le_of_ble_eq_true rfl
  | continuation payload fin =>
      obtain rfl : rest = _ := hfits
      simp only [Action.turn]
      split
      · exact lt_of_supply_eq (Nat.le_of_ble_eq_true rfl) rfl rfl
      · split
        · exact lt_of_supply_eq (Nat.le_of_ble_eq_true rfl) rfl rfl
        · exact lt_of_supply_eq (Nat.le_of_ble_eq_true rfl) rfl rfl
  | data opcode frame =>
      obtain rfl : rest = _ := hfits
      simp only [Action.turn]
      split
      · exact lt_of_supply_eq (Nat.le_of_ble_eq_true rfl) rfl rfl
      · split
        · exact lt_of_supply_eq (Nat.le_of_ble_eq_true rfl) rfl rfl
        · exact lt_of_supply_eq (Nat.le_of_ble_eq_true rfl) rfl rfl
  | deliver opcode payload compressed =>
      have hplain : ∀ plain, cost ((Action.deliverPlain rest opcode plain).code key) <
          cost (.act (.deliver opcode payload compressed) :: rest) :=
        cost_deliverPlain key hfits opcode
      simp only [Action.turn]
      split
      · split
        · rcases hfits with rfl | rfl
          · exact lt_of_supply_eq (Nat.le_of_ble_eq_true rfl) rfl rfl
          · exact lt_of_supply_eq (Nat.le_of_ble_eq_true rfl) rfl rfl
        · split
          · refine lt_of_supply_eq ?_ rfl rfl
            rw [Turn.code, cost, Action.cost]
            · omega
            · simp
          · exact lt_of_supply_eq (hplain _) rfl rfl
      · exact lt_of_supply_eq (hplain _) rfl rfl
  | compress job => simp at ha
  | write job written => simp at ha
  | _ =>
      refine lt_of_supply_eq ?_ rfl rfl
      rw [cost, Action.cost]
      · exact Nat.lt_add_of_pos_left Nat.one_pos
      · simp

end Cost

namespace System

section Ending

variable {ι : Type} [DecidableEq ι] [Fintype ι] {e : Env} {c : Connection} {s s' : System ι} {t : ι}
  {ok : Bool} {n : ℕ}

/-- What is left to do in all calls. -/
def load (s : System ι) : ℕ := supply s.conn + ∑ t, cost (s.rest t)

/-- What is left to write of the frames that are being written. -/
def backlog (s : System ι) : ℕ := ∑ t, unwritten s.conn (s.rest t)

lemma load_lt (code : Code) (hput : s'.rest = Function.update s.rest t code)
    (hlt : cost code + supply s'.conn < cost (s.rest t) + supply s.conn) : s'.load < s.load := by
  have hsum := sum_update cost s.rest t code
  rw [load, load, hput]
  omega

lemma load_lt_of_cost (code : Code) (hput : s'.rest = Function.update s.rest t code)
    (hconn : s'.conn = s.conn) (hlt : cost code < cost (s.rest t)) : s'.load < s.load := by
  refine load_lt code hput ?_
  rw [hconn]
  omega

/-- One partial write, the last of a frame or not, or one that fails. -/
lemma Orderly.load_write {job : Job} {written : ℕ} {rest : Code} (h : Orderly e c s)
    (hrest : s.rest t = .act (.write job written) :: rest) (hrun : s.run e t ok n = some s') :
    s'.load < s.load ∨ (s'.load = s.load ∧ s'.backlog < s.backlog) := by
  have hcost : cost (s.rest t) = 1 + cost rest := by
    rw [hrest]
    rfl
  rw [run, hrest] at hrun
  simp only [perform] at hrun
  split at hrun
  · simp only [System.write] at hrun
    split at hrun
    · obtain rfl := Option.some.inj hrun
      -- the last part
      exact .inl (load_lt_of_cost rest rfl rfl (by omega))
    · split at hrun
      · simp at hrun
      · rename_i hshort hpiece
        obtain rfl := Option.some.inj hrun
        generalize ((job.buffer s.conn).drop written).take n = piece at hshort hpiece ⊢
        -- a part of the frame, which is not empty
        have hpos : 0 < piece.length := List.length_pos_iff.mpr (by simpa using hpiece)
        right
        constructor
        · have hsum := sum_update cost s.rest t (.act (.write job (written + piece.length)) :: rest)
          have hsame : cost (.act (.write job (written + piece.length)) :: rest) =
            1 + cost rest := rfl
          rw [load, load]
          simp only [put]
          omega
        · have hsum := sum_update (unwritten s.conn) s.rest t
            (.act (.write job (written + piece.length)) :: rest)
          rw [hrest, unwritten, unwritten] at hsum
          rw [backlog, backlog]
          simp only [put]
          omega
  · obtain rfl := Option.some.inj hrun
    have hsound := h.sound t
    rw [hrest] at hsound
    have hle := length_unwind_le (sound_act.mp hsound).2 []
    exact .inl (load_lt_of_cost _ rfl rfl (by omega))

/-- **Every operation** leaves less to do, or less to write. -/
lemma Orderly.load_run (h : Orderly e c s) (hrun : s.run e t ok n = some s') :
    s'.load < s.load ∨ (s'.load = s.load ∧ s'.backlog < s.backlog) := by
  by_cases hwrite : ∃ job written rest, s.rest t = .act (.write job written) :: rest
  · obtain ⟨job, written, rest, hrest⟩ := hwrite
    exact h.load_write hrest hrun
  left
  have hsound := h.sound t
  cases ran_of_run hrun with
  | @lock m rest hrest hfree =>
      refine load_lt_of_cost rest rfl rfl ?_
      rw [hrest, cost]
      omega
  | @unlock m rest hrest =>
      refine load_lt_of_cost rest rfl rfl ?_
      rw [hrest, cost]
      omega
  | @turn a rest hrest ha hread =>
      rw [hrest] at hsound
      refine load_lt _ rfl ?_
      rw [hrest]
      exact hsound.cost_turn ha _
  | @compress job rest hrest hframe =>
      obtain ⟨rfl, -⟩ := h.continues_compressed hrest hframe
      refine load_lt _ rfl ?_
      rw [hrest]
      exact lt_of_supply_eq (Nat.le_of_ble_eq_true rfl) rfl rfl
  | @uncompressed job rest hrest hframe =>
      refine load_lt rest rfl ?_
      rw [hrest]
      refine lt_of_supply_eq ?_ rfl rfl
      rw [cost, Action.cost]
      · omega
      · simp
  | part hrest hpiece hlt => exact absurd ⟨_, _, _, hrest⟩ hwrite
  | last hrest => exact absurd ⟨_, _, _, hrest⟩ hwrite
  -- a failure leaves what unlocks
  | @fail a rest hrest hok hread =>
      rw [hrest] at hsound
      have hle := length_unwind_le (sound_act.mp hsound).2 []
      refine load_lt_of_cost _ rfl rfl ?_
      rw [hrest]
      cases a with
      | read => simp at hread
      | _ =>
          rw [cost, Action.cost]
          · omega
          · simp

/-- One operation of some task. -/
def Goes (e : Env) (s s' : System ι) : Prop := ∃ t ok n, s.run e t ok n = some s'

/-- The task hands bytes to the transport, and may have to wait until the peer takes them. -/
def writing (s : System ι) (t : ι) : Bool :=
  match s.rest t with
  | .act (.write _ _) :: _ => true
  | .act .flush :: _ => true
  | _ => false

omit [DecidableEq ι] [Fintype ι] in
/-- Whoever writes has `stream`. -/
lemma Orderly.owner_of_writing (h : Orderly e c s) (hwriting : s.writing t = true) :
    s.owner .stream = some t := by
  have hsound := h.sound t
  rw [h.owned]
  unfold writing at hwriting
  split at hwriting
  · rename_i job written rest hrest
    rw [hrest] at hsound ⊢
    exact (sound_act.mp hsound).1.2.2.2.1
  · rename_i rest hrest
    rw [hrest] at hsound ⊢
    exact (sound_act.mp hsound).1.2.2
  · cases hwriting

/-- One operation of a task that is not in a write, and so needs nothing of the peer but what it has
sent. -/
def GoesAlone (e : Env) (s s' : System ι) : Prop :=
  ∃ t ok n, s.writing t = false ∧ s.run e t ok n = some s'

/-- However the tasks take turns, they come to an end: within a frame that is being written, the
bytes left decide. -/
lemma InOrder.ends (h : InOrder e c s) : Acc (fun s' s => Goes e s s') s := by
  refine acc_of_decreasing (Nat.lt_wfRel.wf.prod_lex Nat.lt_wfRel.wf)
    (fun s => (s.load, s.backlog)) (fun s s' h hgoes => ?_) h
  obtain ⟨t, ok, n, hrun⟩ := hgoes
  refine ⟨h.ran (ran_of_run hrun), Prod.lex_def.mpr ?_⟩
  exact h.load_run hrun

/-- **Calls return, or wait in a write.**  Whatever calls are made on a connection and however their
steps are interleaved, the steps of the tasks come to an end if no further call begins and nothing
further arrives; and if the peer has ended the stream and no task can go on unless bytes are taken,
all calls have returned, or the task that has `stream` is in a write. -/
theorem calls_return (c : Connection) (s : System ι)
    (hrun : Runs (System.step e) (fun _ _ => True) (opened c) s) :
    Acc (fun s' s => Goes e s s') s ∧
      (s.ended = true → (∀ s', ¬GoesAlone e s s') → (∀ t, s.rest t = []) ∨
        ∃ t, s.writing t = true ∧ s.owner .stream = some t) := by
  have hinv := inOrder_of_runs hrun
  refine ⟨hinv.ends, fun hended hstuck => ?_⟩
  by_cases hwriting : ∃ t, s.writing t = true
  · obtain ⟨t, ht⟩ := hwriting
    exact .inr ⟨t, ht, hinv.owner_of_writing ht⟩
  refine .inl fun t => ?_
  by_contra ht
  obtain ⟨u, -, hwaits | ⟨n, hcan⟩⟩ := hinv.exists_canRun ht
  · -- a read does not wait any more
    have hsilent := (waits_iff.mp hwaits).2
    rw [silent, hended] at hsilent
    simp at hsilent
  · obtain ⟨s', hs'⟩ := Option.isSome_iff_exists.mp hcan
    exact hstuck s' ⟨u, true, n, Bool.eq_false_iff.mpr fun hu => hwriting ⟨u, hu⟩, hs'⟩

/-- The peer hangs up while one task reads and another waits to send. -/
theorem calls_return_hangUp :
    ∃ s : System Bool,
      play (System.step Connection.plainEnv) (opened (.new [] .client false))
        (readAndWait ++ sendAndWait ++ [.hangUp]) = some s ∧
      s.queued = true ∧ Acc (fun s' s => Goes Connection.plainEnv s s') s ∧
      (s.ended = true → (∀ s', ¬GoesAlone Connection.plainEnv s s') → (∀ t, s.rest t = []) ∨
        ∃ t, s.writing t = true ∧ s.owner .stream = some t) := by
  have hplay : (play (System.step Connection.plainEnv) (opened (.new [] .client false))
      (readAndWait ++ sendAndWait ++ [.hangUp])).map System.queued = some true := by
    decide +kernel
  obtain ⟨s, hs, hqueued⟩ := Option.map_eq_some_iff.mp hplay
  have hrun : Runs (System.step Connection.plainEnv) (fun _ _ => True)
      (opened (.new [] .client false)) s :=
    runs_of_play (D := fun _ _ => true) _ (fun _ _ _ => trivial) _ hs (by decide +kernel)
  exact ⟨s, hs, hqueued, calls_return _ s hrun⟩

end Ending

end System

end Wscpp.Rs.Threads
