import Wscpp.Rs.Threads

/-!
# The mutexes of a ws-rs connection

What a task still has to do says which mutexes it holds and where in its call it is.  `Guard` says
of each operation what can follow it: a mutex that is taken is released, `outbound` is taken to
build a frame, `stream` to write one or to read, and a write comes when both are held.  A program is
`Sound` if this is so all along it.

The programs are written out in `Wscpp.Rs.Threads`, so their soundness is checked by running through
them, once for each action that branches (`Sound.turn`).  `Ran` has the ways in which a task does
its next operation; what holds of every step is proved by cases over it.  The first such fact is
`Orderly`: in every state of every run, the owners of the mutexes are those that the programs say,
and the programs are sound.
-/

namespace Wscpp.Rs.Threads

open Locks

/-! ## Places -/

/-- The frame that an action sends, now or later. -/
@[simp] def Action.job : Action → Option Job
  | write job _ => some job
  | compress job => some job
  | _ => none

/-- The frame that a program has still to send. -/
@[simp] def pending : Code → Option Job
  | [] => none
  | .lock _ :: rest => pending rest
  | .unlock _ :: rest => pending rest
  | .act a :: rest => a.job.or (pending rest)

/-- How much of its frame is written when an action is reached. -/
@[simp] def Action.written : Action → ℕ
  | write _ written => written
  | _ => 0

@[simp] def Action.isBuild : Action → Bool
  | build _ => true
  | _ => false

@[simp] def Action.isRead : Action → Bool
  | read => true
  | _ => false

/-- How much of its frame a task has written. -/
def progress : Code → ℕ
  | .act a :: _ => a.written
  | _ => 0

/-- The task is about to build its frame. -/
def atBuild : Code → Bool
  | .act a :: _ => a.isBuild
  | _ => false

/-- The task is in `stream.read`. -/
def atRead : Code → Bool
  | .act a :: _ => a.isRead
  | _ => false

section Heads

variable (m : Mutex) (a : Action) (rest : Code)

@[simp] lemma progress_nil : progress [] = 0 := rfl
@[simp] lemma progress_lock : progress (.lock m :: rest) = 0 := rfl
@[simp] lemma progress_unlock : progress (.unlock m :: rest) = 0 := rfl
@[simp] lemma progress_act : progress (.act a :: rest) = a.written := rfl

@[simp] lemma atBuild_lock : atBuild (.lock m :: rest) = false := rfl
@[simp] lemma atBuild_unlock : atBuild (.unlock m :: rest) = false := rfl
@[simp] lemma atBuild_act : atBuild (.act a :: rest) = a.isBuild := rfl

@[simp] lemma atRead_nil : atRead [] = false := rfl
@[simp] lemma atRead_lock : atRead (.lock m :: rest) = false := rfl
@[simp] lemma atRead_unlock : atRead (.unlock m :: rest) = false := rfl
@[simp] lemma atRead_act : atRead (.act a :: rest) = a.isRead := rfl

end Heads

/-- What follows an action. -/
@[simp] def Action.Fits (e : Env) (c : Connection) (rest : Code) : Action → Prop
  | testOpen => rest = [.unlock .isOpen]
  | parse => rest = [.unlock .parser, .unlock .readState]
  | read => rest = [.unlock .stream, .act .parse, .unlock .parser, .unlock .readState]
  | handle _ => rest = []
  | continuation _ _ => rest = [.unlock .fragment]
  | data _ _ => rest = [.unlock .fragment]
  | deliver _ _ _ => rest = [] ∨ rest = [.unlock .fragment]
  | compress job => rest = [] ∧ job.isRaw = false
  | build job =>
      pending rest = some job ∧ holds .outbound rest = true ∧ job.isRaw = false ∧
        (job.frame e c).isSome = true
  | write job _ =>
      pending rest = none ∧ holds .stream rest = true ∧
        (job.isRaw = false → holds .outbound rest = true)
  | flush => holds .stream rest = true
  | setLastClose _ _ | clearOpen => True

/-- What a mutex is taken for, where it matters. -/
@[simp] def Mutex.Fits (rest : Code) : Mutex → Prop
  | outbound => atBuild rest = true
  | stream => (pending rest).isSome = true ∨ atRead rest = true
  | _ => True

/-- What follows an operation in a program. -/
def Guard (e : Env) (c : Connection) (op : Op Mutex Action) (rest : Code) : Prop :=
  Paired op rest ∧ progress rest = 0 ∧ (atRead rest = true → op = .lock .stream) ∧
    match op with
    | .lock m => m.Fits rest
    | .unlock _ => True
    | .act a => a.Fits e c rest

/-- A program is at one of its places. -/
def Sound (e : Env) (c : Connection) : Code → Prop := Along (Guard e c)

section Places

variable {e : Env} {c c₀ : Connection} {rest : Code} {m : Mutex} {a : Action}

@[simp] lemma sound_nil : Sound e c [] := trivial

@[simp] lemma sound_lock : Sound e c (.lock m :: rest) ↔
    (holds m rest = true ∧ progress rest = 0 ∧ (atRead rest = true → m = .stream) ∧
      m.Fits rest) ∧ Sound e c rest := by
  simp [Sound, Along, Guard, Paired]

@[simp] lemma sound_unlock : Sound e c (.unlock m :: rest) ↔
    (holds m rest = false ∧ progress rest = 0 ∧ atRead rest = false) ∧ Sound e c rest := by
  simp [Sound, Along, Guard, Paired]

@[simp] lemma sound_act : Sound e c (.act a :: rest) ↔
    (progress rest = 0 ∧ atRead rest = false ∧ a.Fits e c rest) ∧ Sound e c rest := by
  simp [Sound, Along, Guard, Paired]

/-- A task may go on with `code` where `rest` was left to do. -/
structure Continues (e : Env) (c : Connection) (rest code : Code) : Prop where
  sound : Sound e c code
  holds_eq : ∀ m, holds m code = holds m rest
  progress_eq : progress code = 0
  atRead_eq : atRead code = false

lemma Sound.continues (h : Sound e c (.act a :: rest)) : Continues e c rest rest := by
  rw [sound_act] at h
  exact ⟨h.2, fun _ => rfl, h.1.1, h.1.2.1⟩

/-- Leaving. -/
lemma continues_unwind (rest : Code) : Continues e c rest (unwind [] rest) := by
  have hplace : ∀ code : Code, Releases code →
      Sound e c code ∧ progress code = 0 ∧ atRead code = false := by
    intro code hcode
    induction hcode with
    | nil => exact ⟨trivial, rfl, rfl⟩
    | cons hm _ ih =>
        obtain ⟨hsound, hprogress, hread⟩ := ih
        exact ⟨sound_unlock.mpr ⟨⟨hm, hprogress, hread⟩, hsound⟩, rfl, rfl⟩
  obtain ⟨hsound, hprogress, hread⟩ := hplace _ (releases_unwind rest [])
  exact ⟨hsound, fun m => holds_unwind_nil m rest, hprogress, hread⟩

lemma pending_unwind (rest : Code) : pending (unwind [] rest) = none := by
  have hnone : ∀ code : Code, Releases code → pending code = none := by
    intro code hcode
    induction hcode with
    | nil => rfl
    | cons _ _ ih => exact ih
  exact hnone _ (releases_unwind rest [])

lemma Job.frame_congr (hrole : c.role = c₀.role)
    (hdeflate : c.permessageDeflate = c₀.permessageDeflate) (job : Job) :
    job.frame e c = job.frame e c₀ := by
  unfold frame build buildData Connection.mask
  rw [hrole, hdeflate]

lemma Job.build_eq (out : List UInt8) (job : Job) : job.build e c out = job.frame e c := by
  unfold frame build buildData
  cases job.call <;> simp only [buildIntoOpcode, encodeInto_eq, buildCloseInto_eq]

/-! ## Turns -/

/-- What a task goes on with: the program is sound, and the frame that is begun, if any, is the one
to be sent. -/
structure Turns (e : Env) (c : Connection) (rest : Code) (key : Key) (turn : Turn) : Prop extends
    Continues e c rest (turn.code key) where
  pending_eq : pending (turn.code key) = (turn.job key).or (pending rest)
  fresh : turn.job key ≠ none → pending rest = none ∧ holds .outbound rest = false

variable {key : Key}

lemma Sound.turns (h : Sound e c (.act a :: rest)) : Turns e c rest key (.go rest) where
  toContinues := h.continues
  pending_eq := rfl
  fresh := by simp [Turn.job]

/-- What may follow when a frame has been sent. -/
structure Rear (e : Env) (c : Connection) (rest : Code) : Prop where
  sound : Sound e c rest
  progress_eq : progress rest = 0
  atRead_eq : atRead rest = false
  pending_eq : pending rest = none
  stream : holds .stream rest = false
  outbound : holds .outbound rest = false
  isOpen : holds .isOpen rest = false

lemma rear_nil : Rear e c [] := ⟨sound_nil, rfl, rfl, rfl, rfl, rfl, rfl⟩

lemma rear_readFrame : Rear e c readFrame :=
  ⟨by simp [readFrame], rfl, rfl, rfl, rfl, rfl, rfl⟩

lemma rear_unlock_fragment : Rear e c [.unlock .fragment] :=
  ⟨by simp, rfl, rfl, rfl, rfl, rfl, rfl⟩

lemma Rear.sendRaw {job : Job} (h : Rear e c rest) (hjob : job.isRaw = true) :
    Sound e c (sendRaw job ++ rest) := by
  simp [Threads.sendRaw, h.sound, h.progress_eq, h.atRead_eq, h.pending_eq, h.stream, hjob]

lemma Rear.sendFrameInto {job : Job} (h : Rear e c rest) (hjob : job.isRaw = false)
    (hframe : (job.frame e c).isSome = true) : Sound e c (sendFrameInto job ++ rest) := by
  simp [Threads.sendFrameInto, Threads.sendRaw, h.sound, h.progress_eq, h.atRead_eq, h.pending_eq,
    h.stream, h.outbound, hjob, hframe]

lemma holds_sendFrameInto (job : Job) (hstream : holds .stream rest = false)
    (houtbound : holds .outbound rest = false) (m : Mutex) :
    holds m (sendFrameInto job ++ rest) = holds m rest := by
  cases m <;> simp [sendFrameInto, sendRaw, hstream, houtbound]

lemma Rear.clearOpen (h : Rear e c rest) : Rear e c (clearOpen ++ rest) where
  sound := by
    simp [Threads.clearOpen, h.sound, h.progress_eq, h.atRead_eq, h.isOpen]
  progress_eq := rfl
  atRead_eq := rfl
  pending_eq := h.pending_eq
  stream := h.stream
  outbound := h.outbound
  isOpen := by simp [Threads.clearOpen]

lemma Rear.holds_clearOpen (h : Rear e c rest) (m : Mutex) :
    holds m (Threads.clearOpen ++ rest) = holds m rest := by
  cases m <;> simp [Threads.clearOpen, h.isOpen]

/-- The frames that `read_message` sends by itself. -/
def Outgoing.isReply : Outgoing → Bool
  | pong _ | close _ _ | echo _ => true
  | _ => false

/-- Sending such a frame, with `rest` behind it. -/
lemma Rear.continues {call : Outgoing} (h : Rear e c rest) (hcall : call.isReply = true)
    (key : Key) : Continues e c rest (Job.program ⟨call, key⟩ ++ rest) := by
  have hclose : ∀ job : Job, job.isRaw = false → (job.frame e c).isSome = true →
      job.program = Threads.sendFrameInto job ++ Threads.clearOpen →
      Continues e c rest (job.program ++ rest) := by
    intro job hraw hframe hprogram
    have hrear := h.clearOpen
    rw [hprogram, List.append_assoc]
    refine ⟨hrear.sendFrameInto hraw hframe, fun m => ?_, rfl, rfl⟩
    rw [holds_sendFrameInto job hrear.stream hrear.outbound, h.holds_clearOpen]
  cases call with
  | pong data =>
      exact ⟨h.sendFrameInto rfl rfl, holds_sendFrameInto _ h.stream h.outbound, rfl, rfl⟩
  | close code reason => exact hclose ⟨.close code reason, key⟩ rfl rfl rfl
  | echo code => exact hclose ⟨.echo code, key⟩ rfl rfl rfl
  | _ => simp [Outgoing.isReply] at hcall

lemma pending_program (job : Job) (rest : Code) : pending (job.program ++ rest) = some job := by
  unfold Job.program
  cases job.call <;> rfl

lemma Rear.turns {call : Outgoing} (h : Rear e c rest) (hcall : call.isReply = true) :
    Turns e c rest key (.answer call [] rest) where
  toContinues := h.continues hcall key
  pending_eq := pending_program _ rest
  fresh := fun _ => ⟨h.pending_eq, h.outbound⟩

/-- A sending call begins. -/
lemma continues_program (job : Job) : Continues e c [] (job.program ++ []) := by
  obtain ⟨call, key⟩ := job
  cases call with
  | text text fin =>
      refine ⟨by simp [Job.program, loadDeflate, Job.isRaw], fun m => ?_, rfl, rfl⟩
      cases m <;> rfl
  | binary data fin =>
      refine ⟨by simp [Job.program, loadDeflate, Job.isRaw], fun m => ?_, rfl, rfl⟩
      cases m <;> rfl
  | continuation data fin =>
      exact ⟨rear_nil.sendFrameInto rfl rfl, holds_sendFrameInto _ rfl rfl, rfl, rfl⟩
  | ping data => exact ⟨rear_nil.sendFrameInto rfl rfl, holds_sendFrameInto _ rfl rfl, rfl, rfl⟩
  | pong data => exact rear_nil.continues rfl key
  | close code reason => exact rear_nil.continues rfl key
  | raw frame =>
      refine ⟨rear_nil.sendRaw rfl, fun m => ?_, rfl, rfl⟩
      cases m <;> rfl
  | echo code => exact rear_nil.continues rfl key

lemma continues_readFrame : Continues e c [] readFrame := by
  refine ⟨rear_readFrame.sound, fun m => ?_, rfl, rfl⟩
  cases m <;> rfl

lemma turns_go {code : Code} (hsound : Sound e c code) (hholds : ∀ m, holds m code = holds m rest)
    (hprogress : progress code = 0) (hread : atRead code = false)
    (hpending : pending code = pending rest) : Turns e c rest key (.go code) :=
  ⟨⟨hsound, hholds, hprogress, hread⟩, hpending, by simp [Turn.job]⟩

lemma turns_testOpen :
    Turns e c₀ [.unlock .isOpen] key (Action.testOpen.turn e c [.unlock .isOpen]).2 := by
  unfold Action.turn
  by_cases hopen : c.isOpen = true
  · simp only [hopen, if_true]
    exact turns_go (by simp) (by intro m; cases m <;> rfl) rfl rfl rfl
  · simp only [hopen]
    exact turns_go (by simp) (by intro m; cases m <;> rfl) rfl rfl rfl

lemma turns_parse : Turns e c₀ [.unlock .parser, .unlock .readState] key
    (Action.parse.turn e c [.unlock .parser, .unlock .readState]).2 := by
  simp only [Action.turn]
  split
  · split
    · exact turns_go (by simp [loadDeflate]) (by intro m; cases m <;> rfl) rfl rfl rfl
    · exact turns_go (by simp [loadDeflate]) (by intro m; cases m <;> rfl) rfl rfl rfl
  · -- the guards are dropped before the failure is reported
    have hsend : Sound e c₀ (Job.program ⟨.close 1002 "invalid frame", key⟩ ++ []) :=
      (rear_nil.continues rfl key).sound
    refine ⟨⟨?_, ?_, rfl, rfl⟩, rfl, fun _ => ⟨rfl, rfl⟩⟩
    · exact sound_unlock.mpr ⟨⟨rfl, rfl, rfl⟩, sound_unlock.mpr ⟨⟨rfl, rfl, rfl⟩, hsend⟩⟩
    · intro m
      cases m <;> rfl
  · exact turns_go (by simp) (by intro m; cases m <;> rfl) rfl rfl rfl

lemma turns_read :
    Turns e c₀ [.unlock .stream, .act .parse, .unlock .parser, .unlock .readState] key
      (Action.read.turn e c
        [.unlock .stream, .act .parse, .unlock .parser, .unlock .readState]).2 := by
  simp only [Action.turn]
  split
  · exact turns_go (by simp [unwind, clearOpen]) (by intro m; cases m <;> rfl) rfl rfl rfl
  · exact turns_go (by simp [unwind]) (by intro m; cases m <;> rfl) rfl rfl rfl
  · exact turns_go (by simp) (by intro m; cases m <;> rfl) rfl rfl rfl

lemma turns_handle (frame : Frame) : Turns e c₀ [] key ((Action.handle frame).turn e c []).2 := by
  simp only [Action.turn, Action.handleFrame]
  split
  · -- `last_close` is set before the answer
    have hsend : Sound e c₀ (Job.program
        ⟨.echo (Connection.parseClosePayload frame.payload).1, key⟩ ++ []) :=
      (rear_nil.continues rfl key).sound
    refine ⟨⟨?_, ?_, rfl, rfl⟩, rfl, fun _ => ⟨rfl, rfl⟩⟩
    · exact sound_lock.mpr ⟨⟨rfl, rfl, by simp, trivial⟩, sound_act.mpr ⟨⟨rfl, rfl, trivial⟩,
        sound_unlock.mpr ⟨⟨rfl, rfl, rfl⟩, hsend⟩⟩⟩
    · intro m
      cases m <;> rfl
  · have hsend : Continues e c₀ readFrame (Job.program ⟨.pong frame.payload, key⟩ ++ readFrame) :=
      rear_readFrame.continues rfl key
    refine ⟨⟨hsend.sound, ?_, rfl, rfl⟩, rfl, fun _ => ⟨rfl, rfl⟩⟩
    intro m
    cases m <;> rfl
  · exact turns_go (by simp [readFrame]) (by intro m; cases m <;> rfl) rfl rfl rfl
  · exact turns_go (by simp) (by intro m; cases m <;> rfl) rfl rfl rfl
  · exact turns_go (by simp) (by intro m; cases m <;> rfl) rfl rfl rfl
  · exact turns_go (by simp) (by intro m; cases m <;> rfl) rfl rfl rfl

lemma turns_continuation (payload : List UInt8) (fin : Bool) : Turns e c₀ [.unlock .fragment] key
    ((Action.continuation payload fin).turn e c [.unlock .fragment]).2 := by
  simp only [Action.turn]
  split
  · exact rear_unlock_fragment.turns rfl
  · split
    · exact turns_go (by simp [deliverMessage, loadDeflate]) (by intro m; cases m <;> rfl) rfl rfl
        rfl
    · exact turns_go (by simp [readFrame]) (by intro m; cases m <;> rfl) rfl rfl rfl

lemma turns_data (opcode : Opcode) (frame : Frame) : Turns e c₀ [.unlock .fragment] key
    ((Action.data opcode frame).turn e c [.unlock .fragment]).2 := by
  simp only [Action.turn]
  split
  · exact rear_unlock_fragment.turns rfl
  · split
    · exact turns_go (by simp [readFrame]) (by intro m; cases m <;> rfl) rfl rfl rfl
    · exact turns_go (by simp [deliverMessage, loadDeflate]) (by intro m; cases m <;> rfl) rfl rfl
        rfl

lemma turns_deliverPlain (h : Rear e c₀ rest) (opcode : Opcode) (plain : List UInt8) :
    Turns e c₀ rest key (Action.deliverPlain rest opcode plain) := by
  unfold Action.deliverPlain
  split
  · exact h.turns rfl
  · exact turns_go h.sound (fun _ => rfl) h.progress_eq h.atRead_eq rfl

lemma turns_deliver (h : Rear e c₀ rest) (opcode : Opcode) (payload : List UInt8)
    (compressed : Bool) :
    Turns e c₀ rest key ((Action.deliver opcode payload compressed).turn e c rest).2 := by
  simp only [Action.turn]
  split
  · split
    · exact h.turns rfl
    · split
      · exact turns_go h.sound (fun _ => rfl) h.progress_eq h.atRead_eq rfl
      · exact turns_deliverPlain h opcode _
  · exact turns_deliverPlain h opcode payload

/-- **How a task goes on** after an action that is no sending. -/
lemma Sound.turn (h : Sound e c₀ (.act a :: rest)) (ha : a.job = none) (key : Key) :
    Turns e c₀ rest key (a.turn e c rest).2 := by
  have hfits := (sound_act.mp h).1.2.2
  cases a with
  | testOpen =>
      obtain rfl : rest = _ := hfits
      exact turns_testOpen
  | parse =>
      obtain rfl : rest = _ := hfits
      exact turns_parse
  | read =>
      obtain rfl : rest = _ := hfits
      exact turns_read
  | handle frame =>
      obtain rfl : rest = _ := hfits
      exact turns_handle frame
  | continuation payload fin =>
      obtain rfl : rest = _ := hfits
      exact turns_continuation payload fin
  | data opcode frame =>
      obtain rfl : rest = _ := hfits
      exact turns_data opcode frame
  | deliver opcode payload compressed =>
      rcases hfits with rfl | rfl
      · exact turns_deliver rear_nil opcode payload compressed
      · exact turns_deliver rear_unlock_fragment opcode payload compressed
  | setLastClose code reason => exact h.turns
  | build job => exact h.turns
  | flush => exact h.turns
  | clearOpen => exact h.turns
  | compress job => simp at ha
  | write job written => simp at ha

end Places

/-! ## Steps -/

/-- What reading changes only in `stream.read`, and sending only in building, is unchanged. -/
structure Keeps (c c' : Connection) : Prop where
  role : c'.role = c.role
  permessageDeflate : c'.permessageDeflate = c.permessageDeflate
  outbound : c'.outbound = c.outbound
  input : c'.input = c.input

lemma Keeps.refl (c : Connection) : Keeps c c := ⟨rfl, rfl, rfl, rfl⟩

lemma Keeps.trans {c c' c'' : Connection} (h : Keeps c c') (h' : Keeps c' c'') : Keeps c c'' :=
  ⟨h'.role.trans h.role, h'.permessageDeflate.trans h.permessageDeflate,
    h'.outbound.trans h.outbound, h'.input.trans h.input⟩

lemma keeps_completeFrame (c : Connection) : Keeps c c.completeFrame.1 := by
  unfold Connection.completeFrame
  simp only
  split
  · exact ⟨rfl, rfl, rfl, rfl⟩
  · exact ⟨rfl, rfl, rfl, rfl⟩

lemma keeps_compact (c : Connection) : Keeps c c.compact := by
  unfold Connection.compact
  split
  · exact ⟨rfl, rfl, rfl, rfl⟩
  · exact Keeps.refl c

lemma keeps_parse (e : Env) (c : Connection) (rest : Code) :
    Keeps c (Action.parse.turn e c rest).1 := by
  have hparse : Keeps c (c.parseBuffered e).1 := ⟨rfl, rfl, rfl, rfl⟩
  simp only [Action.turn]
  split
  · rename_i c₁ heq
    rw [heq] at hparse
    have hcomplete := hparse.trans (keeps_completeFrame c₁)
    split
    · rename_i c₂ frame heq₂
      rw [heq₂] at hcomplete
      exact hcomplete
    · rename_i c₂ r _ heq₂
      rw [heq₂] at hcomplete
      exact hcomplete
  · rename_i c₁ heq
    rw [heq] at hparse
    exact hparse
  · rename_i c₁ heq
    rw [heq] at hparse
    exact hparse.trans (keeps_compact c₁)

/-- **What an action leaves**, if it neither builds a frame nor reads. -/
lemma keeps_turn (e : Env) (c : Connection) (rest : Code) {a : Action} (hbuild : a.isBuild = false)
    (hread : a.isRead = false) : Keeps c (a.turn e c rest).1 := by
  cases a with
  | parse => exact keeps_parse e c rest
  | build job => simp at hbuild
  | read => simp at hread
  | continuation payload fin =>
      simp only [Action.turn]
      split
      · exact Keeps.refl c
      · split
        · exact ⟨rfl, rfl, rfl, rfl⟩
        · exact ⟨rfl, rfl, rfl, rfl⟩
  | data opcode frame =>
      simp only [Action.turn]
      split
      · exact Keeps.refl c
      · split
        · exact ⟨rfl, rfl, rfl, rfl⟩
        · exact Keeps.refl c
  | deliver opcode payload compressed =>
      simp only [Action.turn]
      split
      · split
        · exact Keeps.refl c
        · split
          · exact Keeps.refl c
          · exact Keeps.refl c
      · exact Keeps.refl c
  | _ => exact ⟨rfl, rfl, rfl, rfl⟩

lemma turn_read (e : Env) (c : Connection) (rest : Code) :
    ∃ rs input, (Action.read.turn e c rest).1 = { c with readState := rs, input := input } := by
  simp only [Action.turn]
  split
  · exact ⟨c.readState, c.input, rfl⟩
  · rename_i input _
    exact ⟨c.readState, input, rfl⟩
  · exact ⟨_, _, rfl⟩

/-- The role and the extension never change, and the buffer only when a frame is built. -/
lemma turn_setup (e : Env) (c : Connection) (rest : Code) (a : Action) :
    (a.turn e c rest).1.role = c.role ∧
      (a.turn e c rest).1.permessageDeflate = c.permessageDeflate ∧
      (a.isBuild = false → (a.turn e c rest).1.outbound = c.outbound) := by
  cases hbuild : a.isBuild with
  | true =>
      cases a with
      | build job => exact ⟨rfl, rfl, by simp⟩
      | _ => simp at hbuild
  | false =>
      cases hread : a.isRead with
      | true =>
          cases a with
          | read =>
              obtain ⟨rs, input, heq⟩ := turn_read e c rest
              rw [heq]
              exact ⟨rfl, rfl, fun _ => rfl⟩
          | _ => simp at hread
      | false =>
          have hkeeps := keeps_turn e c rest hbuild hread
          exact ⟨hkeeps.role, hkeeps.permessageDeflate, fun _ => hkeeps.outbound⟩

lemma turn_input (e : Env) (c : Connection) (rest : Code) {a : Action} (hread : a.isRead = false) :
    (a.turn e c rest).1.input = c.input := by
  cases hbuild : a.isBuild with
  | true =>
      cases a with
      | build job => rfl
      | _ => simp at hbuild
  | false => exact (keeps_turn e c rest hbuild hread).input

namespace System

variable {ι : Type} [DecidableEq ι] {e : Env} {s s' : System ι} {t : ι} {ok : Bool} {n : ℕ}

variable (e s t ok) in
/-- The ways in which a task does its next operation. -/
inductive Ran : System ι → Prop
  | lock {m : Mutex} {rest : Code} (hrest : s.rest t = .lock m :: rest)
      (hfree : s.owner m = none) :
      Ran { s.put t rest with owner := Function.update s.owner m (some t) }
  | unlock {m : Mutex} {rest : Code} (hrest : s.rest t = .unlock m :: rest) :
      Ran { s.put t rest with owner := Function.update s.owner m none }
  | turn {a : Action} {rest : Code} (hrest : s.rest t = .act a :: rest) (ha : a.job = none)
      (hread : a.isRead = true → s.silent = false) :
      Ran (s.follow e t (a.turn e s.conn rest).1 (a.turn e s.conn rest).2)
  | compress {job : Job} {rest : Code} (hrest : s.rest t = .act (.compress job) :: rest)
      (hframe : (job.frame e s.conn).isSome = true) :
      Ran (s.follow e t s.conn (.go (sendFrameInto job ++ rest)))
  | uncompressed {job : Job} {rest : Code} (hrest : s.rest t = .act (.compress job) :: rest)
      (hframe : job.frame e s.conn = none) :
      Ran ((s.follow e t s.conn (.go rest)).finish t job)
  | part {job : Job} {written : ℕ} {rest : Code} {piece : List UInt8}
      (hrest : s.rest t = .act (.write job written) :: rest)
      (hpiece : piece <+: (job.buffer s.conn).drop written)
      (hlt : written + piece.length < (job.buffer s.conn).length) :
      Ran ({ s with wire := s.wire ++ piece }.put t
        (.act (.write job (written + piece.length)) :: rest))
  | last {job : Job} {written : ℕ} {rest : Code}
      (hrest : s.rest t = .act (.write job written) :: rest) :
      Ran (({ s with wire := s.wire ++ (job.buffer s.conn).drop written }.put t rest).finish t job)
  | fail {a : Action} {rest : Code} (hrest : s.rest t = .act a :: rest) (hok : ok = false)
      (hread : a.isRead = false) : Ran (s.put t (unwind [] rest))

lemma ran_of_write {rest : Code} {job : Job} {written : ℕ}
    (hrest : s.rest t = .act (.write job written) :: rest)
    (h : s.write t n rest job written = some s') : Ran e s t ok s' := by
  have hpiece := List.take_prefix n ((job.buffer s.conn).drop written)
  unfold System.write at h
  simp only at h
  split at h
  · rename_i hle
    -- the piece is all that was left
    have hall : ((job.buffer s.conn).drop written).take n = (job.buffer s.conn).drop written := by
      apply hpiece.eq_of_length_le
      rw [List.length_drop]
      omega
    rw [hall] at h
    obtain rfl := Option.some.inj h
    exact .last hrest
  · rename_i hlt
    split at h
    · simp at h
    · obtain rfl := Option.some.inj h
      exact .part hrest hpiece (by omega)

lemma ran_of_perform {rest : Code} {a : Action} (hrest : s.rest t = .act a :: rest)
    (h : s.perform e t ok n rest a = some s') : Ran e s t ok s' := by
  cases a with
  | read =>
      simp only [perform] at h
      split at h
      · simp at h
      · rename_i hsilent
        obtain rfl := Option.some.inj h
        exact .turn hrest rfl fun _ => by simpa using hsilent
  | compress job =>
      simp only [perform, Action.turn] at h
      obtain rfl := Option.some.inj h
      by_cases hframe : (job.frame e s.conn).isSome = true
      · simp only [hframe, if_true]
        exact .compress hrest hframe
      · simp only [hframe]
        exact .uncompressed hrest (by simpa using hframe)
  | write job written =>
      simp only [perform] at h
      split at h
      · -- the transport takes a part of the frame, or the rest of it
        exact ran_of_write hrest h
      · rename_i hok
        obtain rfl := Option.some.inj h
        exact .fail hrest (by simpa using hok) rfl
  | flush =>
      simp only [perform] at h
      obtain rfl := Option.some.inj h
      split
      · exact .turn hrest rfl (by simp)
      · rename_i hok
        exact .fail hrest (by simpa using hok) rfl
  | _ =>
      obtain rfl := Option.some.inj h
      exact .turn hrest rfl (by simp)

/-- **Inversion** of `run`. -/
lemma ran_of_run (h : s.run e t ok n = some s') : Ran e s t ok s' := by
  unfold run at h
  split at h
  · simp at h
  · rename_i m rest hrest
    split at h
    · simp at h
    · rename_i hfree
      obtain rfl := Option.some.inj h
      exact .lock hrest (by simpa using hfree)
  · rename_i m rest hrest
    obtain rfl := Option.some.inj h
    exact .unlock hrest
  · rename_i a rest hrest
    exact ran_of_perform hrest h

variable (e s) in
/-- The ways in which the system makes a step. -/
inductive Stepped : Act ι → System ι → Prop
  | send {t : ι} {call : Outgoing} (hidle : s.rest t = []) :
      Stepped (.send t call) { s.follow e t s.conn (.answer call [] []) with
        reading := Function.update s.reading t false }
  | read {t : ι} (hidle : s.rest t = []) :
      Stepped (.read t) { s.put t readFrame with reading := Function.update s.reading t true }
  | run {t : ι} {ok : Bool} {n : ℕ} {s' : System ι} (hran : Ran e s t ok s') :
      Stepped (.run t ok n) s'
  | arrive {event : ReadEvent} :
      Stepped (.arrive event) { s with conn := { s.conn with input := s.conn.input ++ [event] } }
  | hangUp : Stepped .hangUp { s with ended := true }

/-- **Inversion** of `step`. -/
lemma stepped_of_step {a : Act ι} (h : s.step e a = some s') : Stepped e s a s' := by
  cases a with
  | send t call =>
      simp only [step] at h
      split at h
      · rename_i hidle
        simp only [Bool.and_eq_true, List.isEmpty_iff] at hidle
        obtain rfl := Option.some.inj h
        exact .send hidle.1
      · simp at h
  | read t =>
      simp only [step] at h
      split at h
      · rename_i hidle
        obtain rfl := Option.some.inj h
        exact .read (List.isEmpty_iff.mp hidle)
      · simp at h
  | run t ok n => exact .run (ran_of_run h)
  | arrive event =>
      simp only [step] at h
      split at h
      · simp at h
      · obtain rfl := Option.some.inj h
        exact .arrive
  | hangUp =>
      obtain rfl := Option.some.inj h
      exact .hangUp

/-! ## Every state of every run -/

/-- The owners of the mutexes are those that the programs say, and the programs are sound; `c` is
the connection at the start. -/
structure Orderly (e : Env) (c : Connection) (s : System ι) : Prop where
  role : s.conn.role = c.role
  permessageDeflate : s.conn.permessageDeflate = c.permessageDeflate
  owned : Owned s.owner s.rest
  sound : ∀ t, Sound e c (s.rest t)

variable {c : Connection}

omit [DecidableEq ι] in
lemma orderly_opened : Orderly e c (opened c : System ι) :=
  ⟨rfl, rfl, owned_idle, fun _ => sound_nil⟩

omit [DecidableEq ι] in
lemma Orderly.frame_eq (h : Orderly e c s) (job : Job) : job.frame e s.conn = job.frame e c :=
  job.frame_congr h.role h.permessageDeflate

lemma sound_update {rest : ι → Code} {code : Code} (h : ∀ t, Sound e c (rest t))
    (hcode : Sound e c code) (u : ι) : Sound e c (Function.update rest t code u) := by
  by_cases hu : u = t
  · subst hu
    rw [Function.update_self]
    exact hcode
  · rw [Function.update_of_ne hu]
    exact h u

/-- A task goes on without touching a mutex. -/
lemma Orderly.continues {rest code : Code} (h : Orderly e c s)
    (hrest : ∀ m, holds m (s.rest t) = holds m rest) (hcode : Continues e c rest code)
    (hrole : s'.conn.role = s.conn.role)
    (hdeflate : s'.conn.permessageDeflate = s.conn.permessageDeflate)
    (howner : s'.owner = s.owner) (hput : s'.rest = Function.update s.rest t code) :
    Orderly e c s' where
  role := hrole.trans h.role
  permessageDeflate := hdeflate.trans h.permessageDeflate
  owned := by
    rw [howner, hput]
    exact h.owned.act fun m => (hcode.holds_eq m).trans (hrest m).symm
  sound := by
    rw [hput]
    exact sound_update h.sound hcode.sound

omit [DecidableEq ι] in
lemma Orderly.continues_compressed {job : Job} {rest : Code} (h : Orderly e c s)
    (hrest : s.rest t = .act (.compress job) :: rest)
    (hframe : (job.frame e s.conn).isSome = true) :
    rest = [] ∧ Continues e c [] (sendFrameInto job ++ []) := by
  have hsound := h.sound t
  rw [hrest, sound_act] at hsound
  obtain ⟨rfl, hraw⟩ := hsound.1.2.2
  rw [h.frame_eq] at hframe
  exact ⟨rfl, rear_nil.sendFrameInto hraw hframe, holds_sendFrameInto job rfl rfl, rfl, rfl⟩

/-- A task's next operation. -/
lemma Orderly.ran (h : Orderly e c s) (hran : Ran e s t ok s') : Orderly e c s' := by
  have hsound := h.sound t
  cases hran with
  | lock hrest hfree =>
      rw [hrest, sound_lock] at hsound
      exact ⟨h.role, h.permessageDeflate, h.owned.lock hrest hfree hsound.1.1,
        sound_update h.sound hsound.2⟩
  | unlock hrest =>
      rw [hrest, sound_unlock] at hsound
      exact ⟨h.role, h.permessageDeflate, h.owned.unlock hrest hsound.1.1,
        sound_update h.sound hsound.2⟩
  | @turn a rest hrest ha hread =>
      rw [hrest] at hsound
      have hturn := hsound.turn (c := s.conn) ha (e.keys (a.turn e s.conn rest).1.writes)
      have hholds : ∀ m, holds m (s.rest t) = holds m rest := fun m => by rw [hrest, holds_act]
      obtain ⟨hrole, hdeflate, -⟩ := turn_setup e s.conn rest a
      exact h.continues hholds hturn.toContinues hrole hdeflate rfl rfl
  | compress hrest hframe =>
      obtain ⟨rfl, hcode⟩ := h.continues_compressed hrest hframe
      exact h.continues (fun m => by rw [hrest, holds_act]) hcode rfl rfl rfl rfl
  | uncompressed hrest hframe =>
      rw [hrest] at hsound
      exact h.continues (fun m => by rw [hrest, holds_act]) hsound.continues rfl rfl rfl rfl
  | @part job written rest piece hrest hpiece hlt =>
      rw [hrest, sound_act] at hsound
      refine ⟨h.role, h.permessageDeflate, h.owned.act fun m => ?_, sound_update h.sound ?_⟩
      · rw [hrest, holds_act, holds_act]
      · exact sound_act.mpr hsound
  | last hrest =>
      rw [hrest] at hsound
      exact h.continues (fun m => by rw [hrest, holds_act]) hsound.continues rfl rfl rfl rfl
  | fail hrest hok hread =>
      exact h.continues (fun m => by rw [hrest, holds_act]) (continues_unwind _) rfl rfl rfl rfl

/-- **Every run is orderly.** -/
lemma Orderly.step {a : Act ι} (h : Orderly e c s) (hstep : s.step e a = some s') :
    Orderly e c s' := by
  cases stepped_of_step hstep with
  | send hidle => exact h.continues (fun m => by rw [hidle]) (continues_program _) rfl rfl rfl rfl
  | read hidle => exact h.continues (fun m => by rw [hidle]) continues_readFrame rfl rfl rfl rfl
  | run hran => exact h.ran hran
  | arrive => exact ⟨h.role, h.permessageDeflate, h.owned, h.sound⟩
  | hangUp => exact ⟨h.role, h.permessageDeflate, h.owned, h.sound⟩

end System

end Wscpp.Rs.Threads
