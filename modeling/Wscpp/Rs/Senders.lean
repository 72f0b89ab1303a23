import Wscpp.Rs.Locking
import Wscpp.Rs.Session

/-!
# Frames are not lost, duplicated or mixed up

All tasks build their frames into one buffer and write to one stream.  Each is behind a mutex of its
own, `send_raw` takes only the second one, and `read_message` sends its answers with other mutexes
held.  Here it is shown that what they write is whole frames: when all calls have returned, the
bytes on the wire are the frames of the calls and answers, each once, in some order
(`senders_intact`).  Writes succeed here; after one that fails, a part of a frame may stay on the
wire.

The invariant `Intact` ties the three together.  Whoever holds `outbound`, and has built its frame,
finds it there.  The wire is the frames that are finished and then the part that the holder of
`stream` has written of its own.  And what a task has begun is what it has finished, and the frame
that it has still to send.
-/

namespace Wscpp.Rs.Threads

open Moves Locks

namespace System

variable {ι : Type} [DecidableEq ι] {e : Env} {c : Connection} {s s' : System ι} {t : ι} {ok : Bool}

/-! ## The wire -/

/-- The frames that are finished. -/
def sent (e : Env) (c : Connection) (s : System ι) : List UInt8 :=
  (s.finished.filterMap fun x => x.2.frame e c).flatten

/-- What a task has written of the frame that it is writing. -/
def partOf (e : Env) (c : Connection) (code : Code) : List UInt8 :=
  match pending code with
  | none => []
  | some job => ((job.frame e c).getD []).take (progress code)

/-- What the holder of `stream` has written of its frame. -/
def part (e : Env) (c : Connection) (s : System ι) : List UInt8 :=
  match s.owner .stream with
  | none => []
  | some t => partOf e c (s.rest t)

lemma partOf_eq_nil {code : Code} (h : progress code = 0) : partOf e c code = [] := by
  unfold partOf
  rw [h]
  split <;> simp

/-- A task that is not in `write_all` goes on outside it. -/
lemma part_put {code : Code} (howner : s'.owner .stream = s.owner .stream)
    (hput : s'.rest = Function.update s.rest t code) (hold : progress (s.rest t) = 0)
    (hnew : progress code = 0) : s'.part e c = s.part e c := by
  unfold part
  rw [howner, hput]
  cases hstream : s.owner .stream with
  | none => rfl
  | some u =>
      by_cases hu : u = t
      · subst hu
        simp only [Function.update_self]
        rw [partOf_eq_nil hold, partOf_eq_nil hnew]
      · simp only [Function.update_of_ne hu]

/-! ## The invariant -/

/-- The frames of a task. -/
def ofTask (t : ι) (jobs : List (ι × Job)) : List (ι × Job) := jobs.filter fun x => x.1 = t

/-- Buffer, calls and wire are as they should be. -/
structure Intact (e : Env) (c : Connection) (s : System ι) : Prop extends Orderly e c s where
  built : ∀ t job, holds .outbound (s.rest t) = true → atBuild (s.rest t) = false →
    pending (s.rest t) = some job → job.frame e c = some s.conn.outbound
  calls : ∀ t, ofTask t s.begun =
    ofTask t s.finished ++ (pending (s.rest t)).toList.map (t, ·)
  wire : s.wire = s.sent e c ++ s.part e c

lemma intact_opened : Intact e c (opened c : System ι) where
  toOrderly := orderly_opened
  built := by
    intro t job hholds
    simp [opened] at hholds
  calls := fun _ => rfl
  wire := rfl

/-- In `write_all`, what is written is the task's own frame. -/
lemma Intact.buffer_eq {job : Job} {written : ℕ} {rest : Code} (h : Intact e c s)
    (hrest : s.rest t = .act (.write job written) :: rest) :
    job.frame e c = some (job.buffer s.conn) := by
  have hsound := h.sound t
  rw [hrest, sound_act] at hsound
  obtain ⟨-, -, hholds⟩ := hsound.1.2.2
  cases hraw : job.isRaw with
  | true =>
      unfold Job.isRaw at hraw
      unfold Job.frame Job.build Job.buffer
      cases hcall : job.call <;> simp_all
  | false =>
      have hbuffer : job.buffer s.conn = s.conn.outbound := by
        unfold Job.isRaw at hraw
        unfold Job.buffer
        cases hcall : job.call <;> simp_all
      rw [hbuffer]
      apply h.built t job
      · rw [hrest, holds_act]
        exact hholds hraw
      · rw [hrest, atBuild_act]
        rfl
      · rw [hrest]
        rfl

/-- What a task begins and finishes while it goes on. -/
lemma calls_of {code : Code} (begun finished : List Job)
    (h : ∀ t, ofTask t s.begun = ofTask t s.finished ++ (pending (s.rest t)).toList.map (t, ·))
    (hbegun : s'.begun = s.begun ++ begun.map (t, ·))
    (hfinished : s'.finished = s.finished ++ finished.map (t, ·))
    (hput : s'.rest = Function.update s.rest t code)
    (hjobs : (pending (s.rest t)).toList ++ begun = finished ++ (pending code).toList) (u : ι) :
    ofTask u s'.begun = ofTask u s'.finished ++ (pending (s'.rest u)).toList.map (u, ·) := by
  have hown : ∀ jobs : List Job, ofTask t (jobs.map (t, ·)) = jobs.map (t, ·) := by
    intro jobs
    unfold ofTask
    rw [List.filter_eq_self]
    simp
  have hother : u ≠ t → ∀ jobs : List Job, ofTask u (jobs.map (t, ·)) = [] := by
    intro hu jobs
    unfold ofTask
    rw [List.filter_eq_nil_iff]
    simp [Ne.symm hu]
  have happ : ∀ xs ys : List (ι × Job), ofTask u (xs ++ ys) = ofTask u xs ++ ofTask u ys :=
    fun xs ys => List.filter_append xs ys
  rw [hbegun, hfinished, hput, happ, happ, h u]
  by_cases hu : u = t
  · subst hu
    rw [hown, hown, Function.update_self, List.append_assoc, List.append_assoc, ← List.map_append,
      ← List.map_append, hjobs]
  · rw [hother hu, hother hu, Function.update_of_ne hu, List.append_nil, List.append_nil]

/-! ## Steps -/

/-- A task's frames are begun and finished one after the other. -/
lemma Intact.calls_ran (h : Intact e c s) (hran : Ran e s t true s') (u : ι) :
    ofTask u s'.begun = ofTask u s'.finished ++ (pending (s'.rest u)).toList.map (u, ·) := by
  have hsound := h.sound t
  cases hran with
  | lock hrest hfree =>
      exact calls_of [] [] h.calls (by simp [put]) (by simp [put]) rfl
        (by simp [hrest]) u
  | unlock hrest =>
      exact calls_of [] [] h.calls (by simp [put]) (by simp [put]) rfl
        (by simp [hrest]) u
  | @turn a rest hrest ha hread =>
      rw [hrest] at hsound
      have hturn := hsound.turn (c := s.conn) ha (e.keys (a.turn e s.conn rest).1.writes)
      refine calls_of _ [] h.calls rfl (by simp [follow, put]) rfl ?_ u
      rw [hturn.pending_eq, hrest, pending, ha]
      -- what a turn begins is what its next program will write
      cases hjob : Turn.job (e.keys (a.turn e s.conn rest).1.writes) (a.turn e s.conn rest).2 with
      | none => simp
      | some job => simp [(hturn.fresh (by simp [hjob])).1]
  | compress hrest hframe =>
      exact calls_of [] [] h.calls (by simp [follow, put, Turn.job])
        (by simp [follow, put]) rfl (by simp [hrest, Turn.code, sendFrameInto, sendRaw]) u
  | @uncompressed job rest hrest hframe =>
      rw [hrest, sound_act] at hsound
      obtain ⟨rfl, -⟩ := hsound.1.2.2
      exact calls_of [] [job] h.calls
        (by simp [finish, follow, put, Turn.job]) rfl rfl (by simp [hrest, Turn.code]) u
  | part hrest hpiece hlt =>
      exact calls_of [] [] h.calls (by simp [put]) (by simp [put]) rfl
        (by simp [hrest]) u
  | @last job written rest hrest =>
      rw [hrest, sound_act] at hsound
      -- the last part finishes the frame
      have hnone := hsound.1.2.2.1
      exact calls_of [] [job] h.calls (by simp [finish, put]) rfl rfl
        (by simp [hrest, hnone]) u
  | fail hrest hok hread => simp at hok

/-- The buffer changes only if its holder builds its frame. -/
lemma built_of {code : Code} (h : Intact e c s) (hput : s'.rest = Function.update s.rest t code)
    (houtbound : s'.conn.outbound = s.conn.outbound ∨ holds .outbound (s.rest t) = true)
    (hcode : ∀ job, holds .outbound code = true → atBuild code = false →
      pending code = some job → job.frame e c = some s'.conn.outbound)
    (u : ι) (job : Job) (hholds : holds .outbound (s'.rest u) = true)
    (hbuild : atBuild (s'.rest u) = false) (hpending : pending (s'.rest u) = some job) :
    job.frame e c = some s'.conn.outbound := by
  rw [hput] at hholds hbuild hpending
  by_cases hu : u = t
  · subst hu
    rw [Function.update_self] at hholds hbuild hpending
    exact hcode job hholds hbuild hpending
  · rw [Function.update_of_ne hu] at hholds hbuild hpending
    rcases houtbound with hsame | hheld
    · rw [hsame]
      exact h.built u job hholds hbuild hpending
    · exact absurd (h.owned.unique hholds hheld) hu

/-- Going on with the same frame in the same buffer. -/
lemma Intact.built_same {code : Code} (h : Intact e c s)
    (hput : s'.rest = Function.update s.rest t code)
    (houtbound : s'.conn.outbound = s.conn.outbound)
    (hcode : holds .outbound code = true → atBuild code = false → pending code ≠ none →
      holds .outbound (s.rest t) = true ∧ atBuild (s.rest t) = false ∧
        pending (s.rest t) = pending code) :
    ∀ u job, holds .outbound (s'.rest u) = true → atBuild (s'.rest u) = false →
      pending (s'.rest u) = some job → job.frame e c = some s'.conn.outbound := by
  apply built_of h hput (.inl houtbound)
  intro job hholds hbuild hpending
  obtain ⟨hheld, hnot, hsame⟩ := hcode hholds hbuild (by simp [hpending])
  rw [houtbound]
  exact h.built t job hheld hnot (hsame.trans hpending)

lemma Intact.built_ran (h : Intact e c s) (hran : Ran e s t true s') :
    ∀ u job, holds .outbound (s'.rest u) = true → atBuild (s'.rest u) = false →
      pending (s'.rest u) = some job → job.frame e c = some s'.conn.outbound := by
  have hsound := h.sound t
  cases hran with
  | @lock m rest hrest hfree =>
      rw [hrest, sound_lock] at hsound
      refine h.built_same rfl rfl fun hholds hbuild _ => ?_
      have hm : m ≠ .outbound := by
        rintro rfl
        have hat : atBuild rest = true := hsound.1.2.2.2
        rw [hbuild] at hat
        simp at hat
      rw [hrest, holds_lock, if_neg hm]
      exact ⟨hholds, rfl, rfl⟩
  | @unlock m rest hrest =>
      rw [hrest, sound_unlock] at hsound
      refine h.built_same rfl rfl fun hholds _ _ => ?_
      have hm : m ≠ .outbound := by
        rintro rfl
        rw [hsound.1.1] at hholds
        simp at hholds
      rw [hrest, holds_unlock, if_neg hm]
      exact ⟨hholds, rfl, rfl⟩
  | @turn a rest hrest ha hread =>
      rw [hrest] at hsound
      have hturn := hsound.turn (c := s.conn) ha (e.keys (a.turn e s.conn rest).1.writes)
      cases hbuild : a.isBuild with
      | false =>
          have houtbound := (turn_setup e s.conn rest a).2.2 hbuild
          apply h.built_same rfl houtbound
          intro hholds _ _
          have hheld : holds .outbound rest = true := by
            rw [← hturn.holds_eq]
            exact hholds
          -- no answer is begun with `outbound` held
          have hnone : (a.turn e s.conn rest).2.job (e.keys (a.turn e s.conn rest).1.writes) =
              none := by
            by_contra hjob
            rw [(hturn.fresh hjob).2] at hheld
            simp at hheld
          rw [hrest, holds_act, atBuild_act, pending, ha, hturn.pending_eq, hnone]
          exact ⟨hheld, hbuild, rfl⟩
      | true =>
          cases a with
          | build job =>
              rw [sound_act] at hsound
              obtain ⟨hpending, hheld, -, hsome⟩ := hsound.1.2.2
              apply built_of h rfl (.inr (by rw [hrest, holds_act]; exact hheld))
              intro job' _ _ hpending'
              obtain rfl : job = job' := by
                have heq : some job' = some job := hpending'.symm.trans hpending
                exact (Option.some.inj heq).symm
              obtain ⟨frame, hframe⟩ := Option.isSome_iff_exists.mp hsome
              simp [follow, Action.turn, Job.build_eq, h.frame_eq, hframe]
          | _ => simp at hbuild
  | @compress job rest hrest hframe =>
      obtain ⟨rfl, hcode⟩ := h.continues_compressed hrest hframe
      refine h.built_same rfl rfl fun hholds _ _ => ?_
      have hheld : holds .outbound (sendFrameInto job ++ []) = true := hholds
      rw [hcode.holds_eq] at hheld
      simp at hheld
  | @uncompressed job rest hrest hframe =>
      rw [hrest, sound_act] at hsound
      obtain ⟨rfl, -⟩ := hsound.1.2.2
      exact h.built_same rfl rfl fun hholds _ _ => by simp [Turn.code] at hholds
  | part hrest hpiece hlt =>
      refine h.built_same rfl rfl fun hholds _ _ => ?_
      rw [hrest]
      exact ⟨hholds, rfl, rfl⟩
  | last hrest =>
      rw [hrest, sound_act] at hsound
      have hnone := hsound.1.2.2.1
      exact h.built_same rfl rfl fun _ _ hne => absurd hnone hne
  | fail hrest hok hread => simp at hok

lemma Intact.wire_same (h : Intact e c s) (hwire : s'.wire = s.wire)
    (hsent : s'.sent e c = s.sent e c) (hpart : s'.part e c = s.part e c) :
    s'.wire = s'.sent e c ++ s'.part e c := by
  rw [hwire, hsent, hpart]
  exact h.wire

/-- The holder of `stream` is the one that writes. -/
lemma Intact.part_eq {job : Job} {written : ℕ} {rest : Code} (h : Intact e c s)
    (hrest : s.rest t = .act (.write job written) :: rest) :
    s.owner .stream = some t ∧ s.part e c = (job.buffer s.conn).take written := by
  have hsound := h.sound t
  rw [hrest, sound_act] at hsound
  have howner : s.owner .stream = some t := by
    rw [h.owned .stream t, hrest, holds_act]
    exact hsound.1.2.2.2.1
  refine ⟨howner, ?_⟩
  simp [part, howner, partOf, hrest, h.buffer_eq hrest]

/-- A part more of a frame is written. -/
lemma Intact.wire_part {job : Job} {written : ℕ} {rest : Code} {piece : List UInt8}
    (h : Intact e c s) (hrest : s.rest t = .act (.write job written) :: rest)
    (hpiece : piece <+: (job.buffer s.conn).drop written) :
    s.wire ++ piece = System.sent e c ({ s with wire := s.wire ++ piece }.put t
        (.act (.write job (written + piece.length)) :: rest)) ++
      System.part e c ({ s with wire := s.wire ++ piece }.put t
        (.act (.write job (written + piece.length)) :: rest)) := by
  obtain ⟨howner, hpart⟩ := h.part_eq hrest
  have hpart' : System.part e c ({ s with wire := s.wire ++ piece }.put t
      (.act (.write job (written + piece.length)) :: rest)) =
      (job.buffer s.conn).take (written + piece.length) := by
    simp [System.part, put, howner, partOf, h.buffer_eq hrest]
  have hwire : s.wire ++ piece = s.sent e c ++ (job.buffer s.conn).take
      (written + piece.length) := by
    rw [h.wire, hpart, List.append_assoc, List.take_add, ← List.prefix_iff_eq_take.mp hpiece]
  rw [hpart']
  exact hwire

/-- The last part of a frame is written, and it counts as sent from now on. -/
lemma Intact.wire_last {job : Job} {written : ℕ} {rest : Code} (h : Intact e c s)
    (hrest : s.rest t = .act (.write job written) :: rest) :
    s.wire ++ (job.buffer s.conn).drop written = System.sent e c (({ s with
        wire := s.wire ++ (job.buffer s.conn).drop written }.put t rest).finish t job) ++
      System.part e c (({ s with
        wire := s.wire ++ (job.buffer s.conn).drop written }.put t rest).finish t job) := by
  obtain ⟨howner, hpart⟩ := h.part_eq hrest
  have hsound := h.sound t
  rw [hrest] at hsound
  have hpart' : System.part e c (({ s with
      wire := s.wire ++ (job.buffer s.conn).drop written }.put t rest).finish t job) = [] := by
    simp [System.part, put, finish, howner, partOf_eq_nil hsound.continues.progress_eq]
  have hsent : System.sent e c (({ s with
      wire := s.wire ++ (job.buffer s.conn).drop written }.put t rest).finish t job) =
      s.sent e c ++ job.buffer s.conn := by
    simp [sent, finish, put, h.buffer_eq hrest]
  have hwire : s.wire ++ (job.buffer s.conn).drop written =
      s.sent e c ++ job.buffer s.conn := by
    rw [h.wire, hpart, List.append_assoc, List.take_append_drop]
  rw [hpart', hsent, List.append_nil]
  exact hwire

lemma Intact.wire_ran (h : Intact e c s) (hran : Ran e s t true s') :
    s'.wire = s'.sent e c ++ s'.part e c := by
  have hsound := h.sound t
  cases hran with
  | @lock m rest hrest hfree =>
      rw [hrest, sound_lock] at hsound
      refine h.wire_same rfl rfl ?_
      by_cases hm : m = .stream
      · subst hm
        -- who takes `stream` has written nothing of a frame yet
        simp [part, put, hfree, partOf_eq_nil hsound.1.2.1]
      · have howner : Function.update s.owner m (some t) .stream = s.owner .stream :=
          Function.update_of_ne (Ne.symm hm) _ _
        exact part_put howner rfl (by rw [hrest, progress_lock]) hsound.1.2.1
  | @unlock m rest hrest =>
      rw [hrest, sound_unlock] at hsound
      refine h.wire_same rfl rfl ?_
      by_cases hm : m = .stream
      · subst hm
        -- who gives it back has written the whole of its frame
        have howner : s.owner .stream = some t := by
          rw [h.owned .stream t, hrest]
          simp
        have hnil : partOf e c (s.rest t) = [] := partOf_eq_nil (by rw [hrest, progress_unlock])
        simp [part, howner, hnil]
      · have howner : Function.update s.owner m none .stream = s.owner .stream :=
          Function.update_of_ne (Ne.symm hm) _ _
        exact part_put howner rfl (by rw [hrest, progress_unlock]) hsound.1.2.1
  | @turn a rest hrest ha hread =>
      rw [hrest] at hsound
      have hturn := hsound.turn (c := s.conn) ha (e.keys (a.turn e s.conn rest).1.writes)
      -- no other action has written a part of a frame
      have hzero : a.written = 0 := by
        cases a with
        | write job written => simp at ha
        | _ => rfl
      exact h.wire_same rfl rfl
        (part_put rfl rfl (by rw [hrest, progress_act, hzero]) hturn.progress_eq)
  | compress hrest hframe =>
      obtain ⟨rfl, hcode⟩ := h.continues_compressed hrest hframe
      exact h.wire_same rfl rfl
        (part_put rfl rfl (by rw [hrest, progress_act]; rfl) hcode.progress_eq)
  | @uncompressed job rest hrest hframe =>
      rw [hrest] at hsound
      rw [h.frame_eq] at hframe
      refine h.wire_same rfl ?_
        (part_put rfl rfl (by rw [hrest, progress_act]; rfl) hsound.continues.progress_eq)
      simp [sent, finish, follow, put, hframe]
  | part hrest hpiece hlt => exact h.wire_part hrest hpiece
  | last hrest => exact h.wire_last hrest
  | fail hrest hok hread => simp at hok

/-! ## Runs -/

/-- Writes succeed. -/
def WritesSucceed (_ : System ι) : Act ι → Prop
  | .run _ ok _ => ok = true
  | _ => True

instance (s : System ι) : (a : Act ι) → Decidable (s.WritesSucceed a)
  | .run _ ok _ => inferInstanceAs (Decidable (ok = true))
  | .send _ _ | .read _ | .arrive _ | .hangUp => inferInstanceAs (Decidable True)

/-- **Every step keeps the frames intact.** -/
lemma Intact.step {a : Act ι} (h : Intact e c s) (hok : s.WritesSucceed a)
    (hstep : s.step e a = some s') : Intact e c s' := by
  have horderly := h.toOrderly.step hstep
  cases stepped_of_step hstep with
  | @send t call hidle =>
      have hcode : Continues e c [] (Job.program ⟨call, e.keys s.conn.writes⟩ ++ []) :=
        continues_program _
      refine ⟨horderly, h.built_same rfl rfl fun hholds _ _ => ?_, ?_, h.wire_same rfl rfl ?_⟩
      · have hheld : holds .outbound (Job.program ⟨call, e.keys s.conn.writes⟩ ++ []) = true :=
          hholds
        rw [hcode.holds_eq] at hheld
        simp at hheld
      · refine calls_of [⟨call, e.keys s.conn.writes⟩] [] h.calls rfl
          (by simp [follow, put]) rfl ?_
        have hpending := pending_program ⟨call, e.keys s.conn.writes⟩ []
        simpa [hidle, Turn.code] using (congrArg Option.toList hpending).symm
      · exact part_put rfl rfl (by rw [hidle, progress_nil]) hcode.progress_eq
  | read hidle =>
      refine ⟨horderly, h.built_same rfl rfl fun hholds _ _ => ?_, ?_, h.wire_same rfl rfl ?_⟩
      · simp [readFrame] at hholds
      · exact calls_of [] [] h.calls (by simp [put]) (by simp [put]) rfl
          (by simp [hidle, readFrame])
      · exact part_put rfl rfl (by rw [hidle, progress_nil]) rfl
  | @run t ok n _ hran =>
      obtain rfl : ok = true := hok
      exact ⟨horderly, h.built_ran hran, h.calls_ran hran, h.wire_ran hran⟩
  | arrive => exact ⟨horderly, h.built, h.calls, h.wire⟩
  | hangUp => exact ⟨horderly, h.built, h.calls, h.wire⟩

/-- Only the compression can keep a call from having a frame. -/
lemma frame_isSome (hcompress : c.permessageDeflate = true →
    ∀ data, compressMessage e.zlib data ≠ none) (job : Job) : (job.frame e c).isSome = true := by
  have hdata : ∀ opcode data fin, (Job.buildData e c opcode data fin job.key []).isSome = true := by
    intro opcode data fin
    unfold Job.buildData
    split
    · rename_i hdeflate
      simp only [Bool.and_eq_true] at hdeflate
      rw [Option.isSome_map, Option.isSome_iff_ne_none]
      exact hcompress hdeflate.1.1 data
    · rfl
  unfold Job.frame Job.build
  cases job.call with
  | text text fin => exact hdata .text _ fin
  | binary data fin => exact hdata .binary data fin
  | _ => rfl

variable (e) in
/-- **Frames are not lost, duplicated or mixed up.**  In every run in which writes succeed, once all
calls have returned, the bytes on the wire are the frames of the calls and of the answers of
`read_message`, each of them once and whole, in some order.  A call has a frame unless its
compression fails. -/
theorem senders_intact (c : Connection) (s : System ι)
    (hrun : Runs (step e) WritesSucceed (opened c) s) (hidle : ∀ t, s.rest t = []) :
    (∃ order : List (ι × Job), order.Perm s.begun ∧
      s.wire = (order.filterMap fun x => x.2.frame e c).flatten) ∧
    ((c.permessageDeflate = true → ∀ data, compressMessage e.zlib data ≠ none) →
      ∀ x ∈ s.begun, (x.2.frame e c).isSome = true) := by
  have hintact : Intact e c s :=
    hrun.invariant intact_opened fun s a s' h hok hstep => h.step hok hstep
  refine ⟨⟨s.finished, ?_, ?_⟩, fun hcompress x _ => frame_isSome hcompress x.2⟩
  · -- a task that has returned has finished what it has begun
    rw [List.perm_iff_count]
    rintro ⟨t, job⟩
    have hcalls := hintact.calls t
    rw [hidle t] at hcalls
    have hcount := congrArg (List.count (t, job)) hcalls
    simpa [ofTask, List.count_filter] using hcount.symm
  · have hwire := hintact.wire
    have hpart : s.part e c = [] := by
      unfold part
      split
      · rfl
      · exact partOf_eq_nil (by rw [hidle, progress_nil])
    rw [hpart, List.append_nil] at hwire
    exact hwire

/-- All calls of two tasks have returned. -/
def idle (s : System Bool) : Bool := (s.rest false).isEmpty && (s.rest true).isEmpty

end System

/-- A task does so many operations; a write writes all that is left. -/
def runs (t : Bool) (n : ℕ) : List (Act Bool) := List.replicate n (.run t true 100)

lemma pingBytes_ne_nil : ([0x89, 0x02, 0x68, 0x69] : List UInt8) ≠ [] := List.cons_ne_nil _ _

lemma pingBytes_length_le : ([0x89, 0x02, 0x68, 0x69] : List UInt8).length ≤ readChunk := by
  decide

/-- A PING frame of the server. -/
def pingBytes : Chunk := ⟨[0x89, 0x02, 0x68, 0x69], pingBytes_ne_nil, pingBytes_length_le⟩

/-- The reader has built its PONG frame when another task writes a frame by `send_raw`, in two
pieces, and then sends a text; the stream ends. -/
def pongBetween : List (Act Bool) :=
  .read true :: .arrive (.data pingBytes) :: runs true 17 ++
    .send false (.raw [0x89, 0x00]) :: .run false true 0 :: .run false true 1 :: runs false 3 ++
    .send false (.text "a" true) :: runs false 3 ++ runs true 5 ++ runs false 7 ++ runs true 6 ++
    .hangUp :: runs true 8

theorem senders_intact_pong :
    ∃ s : System Bool,
      play (System.step Connection.plainEnv) (.opened (.new [] .client false)) pongBetween =
        some s ∧
      s.wire = [0x89, 0x00, 0x8a, 0x82, 0x00, 0x01, 0x02, 0x03, 0x68, 0x68, 0x81, 0x81, 0x02, 0x01,
        0x02, 0x03, 0x63] ∧
      ∃ order : List (Bool × Job), order.Perm s.begun ∧
        s.wire = (order.filterMap fun x =>
          x.2.frame Connection.plainEnv (.new [] .client false)).flatten := by
  have hplay : (play (System.step Connection.plainEnv) (.opened (.new [] .client false))
      pongBetween).map (fun s => (s.idle, s.wire)) = some (true, [0x89, 0x00, 0x8a, 0x82, 0x00,
        0x01, 0x02, 0x03, 0x68, 0x68, 0x81, 0x81, 0x02, 0x01, 0x02, 0x03, 0x63]) := by
    decide +kernel
  obtain ⟨s, hs, hsummary⟩ := Option.map_eq_some_iff.mp hplay
  simp only [Prod.mk.injEq, System.idle, Bool.and_eq_true, List.isEmpty_iff] at hsummary
  obtain ⟨⟨hfalse, htrue⟩, hwire⟩ := hsummary
  refine ⟨s, hs, hwire, (System.senders_intact _ _ s ?_ fun t => ?_).1⟩
  · exact runs_of_play (D := fun s a => decide (s.WritesSucceed a)) _
      (fun s a h => of_decide_eq_true h) _ hs (by decide +kernel)
  · cases t with
    | false => exact hfalse
    | true => exact htrue

end Wscpp.Rs.Threads
