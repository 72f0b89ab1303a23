import Wscpp.Rs.Reader
import Wscpp.Emission

/-!
# What `read_frame` keeps

The bytes that the parser has not taken stay in `ReadState::buf`, and the next read is put behind
them.  The payload of a frame is taken as it comes, so what is left is never more than a part of a
header: at most seven bytes, of the eight of the longest length.  Hence the buffer does not grow:
in every run of any tasks it holds at most a read and seven bytes more (`buffer_bounded`), whatever
the peer sends.

This is so on hosts whose `usize` has 63 bits at least.  On a smaller one `payload_remaining as
usize` can be zero where `payload_remaining` is not; then the parser takes nothing any more, and
the buffer holds whatever the peer goes on to send (`buffer_grows`).
-/

namespace Wscpp.Rs

open Incremental Words Moves Locks

/-! ## Where the parser stalls -/

namespace Parser

variable {bits k : ℕ} {p q : Parser} {a : List UInt8}

lemma length_of_stall_length (h : (parsePayloadLength p a).2.2 = 0) : a.length ≤ 7 := by
  rw [parsePayloadLength] at h
  split_ifs at h
  · omega
  · rw [setPayloadLength_eaten] at h
    omega
  · omega
  · rw [setPayloadLength_eaten] at h
    omega

/-- **A parser that takes nothing** has less than a length before it. -/
lemma length_of_stall (hbits : 63 ≤ bits) (hp : p.Bounded) (hnone : (sub bits p a).2.1 = none)
    (h : (sub bits p a).2.2 = 0) : a.length ≤ 7 := by
  rw [sub] at hnone h
  cases hstate : p.state with
  | header =>
      simp only [hstate] at hnone h
      rcases a with _ | ⟨x, _ | ⟨y, a⟩⟩
      · simp
      · simp
      · simp only [parseHeader] at hnone h
        split at hnone
        · simp at hnone
        · rename_i op hop
          simp only [hop] at h
          split_ifs at h
  | payloadLengthExt =>
      simp only [hstate] at hnone h
      exact length_of_stall_length h
  | maskingKey =>
      simp only [hstate] at hnone h
      rcases a with _ | ⟨k0, _ | ⟨k1, _ | ⟨k2, _ | ⟨k3, a⟩⟩⟩⟩
      · simp
      · simp
      · simp
      · simp
      · simp [parseMaskingKey] at h
  | payload =>
      simp only [hstate, parsePayload] at hnone h
      rw [Bounded, hstate] at hp
      split_ifs at hnone h with hzero hdone
      -- what is missing is below `2 ^ 63`, so as a `usize` it is not zero
      have hpow : 2 ^ 63 ≤ 2 ^ bits := Nat.pow_le_pow_right (by omega) hbits
      have hmod : p.payloadRemaining % 2 ^ bits = p.payloadRemaining := Nat.mod_eq_of_lt (by omega)
      rw [hmod] at h
      have hnil : a.length = 0 := by
        simp only at h
        omega
      omega

/-- What a call leaves over is part of a header. -/
lemma length_of_asks (hbits : 63 ≤ bits) (hp : p.Bounded)
    (h : outcome (sub bits) p a = (q, none, a)) : a.length ≤ 7 := by
  by_cases hnil : a = []
  · simp [hnil]
  · have hstall := length_of_stall (a := a) hbits hp
    rcases hsub : sub bits p a with ⟨s, _ | r, _ | k⟩
    · rw [hsub] at hstall
      exact hstall rfl rfl
    · -- a turn that eats leaves less
      have hleft := congrArg (fun t => t.2.2.length) h
      have hpos := List.length_pos_of_ne_nil hnil
      simp only [outcome, pump_of_eat (Nat.succ_pos k) hnil hsub, List.length_drop] at hleft
      omega
    · simp [outcome_of_some hnil hsub] at h
    · simp [outcome_of_some hnil hsub] at h

end Parser

namespace Threads

/-- `stream.read`, and what follows it in `read_frame`. -/
def atStream : Code :=
  [.act .read, .unlock .stream, .act .parse, .unlock .parser, .unlock .readState]

/-- A program that is going to read is at the read, or about to take the mutex of the stream. -/
def Shaped (code : Code) : Prop :=
  .act .read ∈ code → code = .lock .stream :: atStream ∨ code = atStream

section Turns

variable {e : Env} {conn : Connection} {rest : Code} {a : Action}

lemma shaped_of_notMem {code : Code} (h : .act .read ∉ code) : Shaped code :=
  fun hmem => absurd hmem h

lemma Shaped.behind {op : Op Mutex Action} (h : Shaped (op :: rest)) : Shaped rest := by
  intro hmem
  rcases h (List.mem_cons_of_mem _ hmem) with heq | heq
  · exact .inr (List.cons.inj heq).2
  · rw [(List.cons.inj heq).2] at hmem
    simp at hmem

lemma Shaped.holds {code : Code} (h : Shaped code) (hmem : .act .read ∈ code) :
    holds .readState code = true := by
  rcases h hmem with rfl | rfl
  · rfl
  · rfl

lemma Shaped.tail {op : Op Mutex Action} (h : Shaped (op :: rest)) (hop : op ≠ .lock .stream) :
    .act .read ∉ rest := by
  intro hmem
  rcases h (List.mem_cons_of_mem _ hmem) with heq | heq
  · exact hop (List.cons.inj heq).1
  · rw [(List.cons.inj heq).2] at hmem
    simp at hmem

/-- Only the parser sends a task to read. -/
lemma read_notMem_turn (key : Key) (hparse : a ≠ .parse) (hrest : .act .read ∉ rest) :
    .act .read ∉ (a.turn e conn rest).2.code key := by
  cases a with
  | parse => exact absurd rfl hparse
  | testOpen =>
      simp only [Action.turn, Turn.code]
      split <;> simp [hrest]
  | read =>
      -- what is left of a read is unlocking
      have hleave := act_notMem_unwind .read rest
      simp only [Action.turn]
      split <;> simp [Turn.code, clearOpen, hrest, hleave]
  | handle frame =>
      simp only [Action.turn, Action.handleFrame]
      split
      · exact read_notMem_answer key (by simp) hrest
      · exact read_notMem_answer key (by simp) (by simp [hrest, readFrame])
      · simp [Turn.code, hrest, readFrame]
      · simp [Turn.code, hrest]
      · simp [Turn.code, hrest]
      · simp [Turn.code, hrest]
  | continuation payload fin =>
      simp only [Action.turn]
      split
      · exact read_notMem_answer key (by simp) hrest
      · split <;> simp [Turn.code, hrest, deliverMessage, loadDeflate, readFrame]
  | data opcode frame =>
      simp only [Action.turn]
      split
      · exact read_notMem_answer key (by simp) hrest
      · split <;> simp [Turn.code, hrest, deliverMessage, loadDeflate, readFrame]
  | deliver opcode payload compressed =>
      have hplain : ∀ plain,
          .act .read ∉ (Action.deliverPlain rest opcode plain).code key := by
        intro plain
        rw [Action.deliverPlain]
        split
        · exact read_notMem_answer key (by simp) hrest
        · exact hrest
      simp only [Action.turn]
      split
      · split
        · exact read_notMem_answer key (by simp) hrest
        · split
          · exact hrest
          · exact hplain _
      · exact hplain _
  | compress job =>
      -- sending a frame does not read
      have hsend := quiet_sendFrameInto job .read
      simp only [Action.turn, Turn.code]
      split
      · rw [List.mem_append]
        rintro (hmem | hmem)
        · simpa [Action.reads] using hsend hmem
        · exact hrest hmem
      · exact hrest
  | _ => exact hrest

/-- Only the parser and a read touch what is buffered. -/
lemma turn_readState (hparse : a ≠ .parse) (hread : a ≠ .read) :
    (a.turn e conn rest).1.readState = conn.readState ∧
      (a.turn e conn rest).1.parser = conn.parser := by
  cases a with
  | parse => exact absurd rfl hparse
  | read => exact absurd rfl hread
  | continuation payload fin =>
      simp only [Action.turn]
      split
      · exact ⟨rfl, rfl⟩
      · split <;> exact ⟨rfl, rfl⟩
  | data opcode frame =>
      simp only [Action.turn]
      split
      · exact ⟨rfl, rfl⟩
      · split <;> exact ⟨rfl, rfl⟩
  | deliver opcode payload compressed =>
      simp only [Action.turn]
      split
      · split
        · exact ⟨rfl, rfl⟩
        · split <;> exact ⟨rfl, rfl⟩
      · exact ⟨rfl, rfl⟩
  | _ => exact ⟨rfl, rfl⟩

/-- A call of the parser does not make the buffer longer. -/
lemma length_parse_le (e : Env) (conn : Connection) (rest : Code) :
    (Action.parse.turn e conn rest).1.readState.buf.length ≤ conn.readState.buf.length := by
  have hcompact : ∀ c : Connection, c.compact.readState.buf.length ≤ c.readState.buf.length := by
    intro c
    rw [Connection.compact]
    split <;> simp
  have hcomplete : ∀ c : Connection,
      c.completeFrame.1.readState.buf.length ≤ c.readState.buf.length := by
    intro c
    rw [Connection.completeFrame]
    simp only
    split <;> split <;> simp
  have hbuffered : (conn.parseBuffered e).1.readState.buf = conn.readState.buf := rfl
  simp only [Action.turn]
  split
  · rename_i c hc
    have hle := hcomplete c
    rw [hc] at hbuffered
    simp only at hbuffered
    rw [hbuffered] at hle
    split
    · rename_i c' frame hc'
      rwa [hc'] at hle
    · rename_i c' r hc'
      rwa [hc'] at hle
  · rename_i c hc
    rw [hc] at hbuffered
    exact (congrArg List.length hbuffered).le
  · rename_i c hc
    have hle := hcompact c
    rw [hc] at hbuffered
    simp only at hbuffered
    rwa [hbuffered] at hle

/-- A read puts at most `readChunk` bytes behind what is buffered. -/
lemma length_read_le (e : Env) (conn : Connection) (rest : Code) :
    (Action.read.turn e conn rest).1.parser = conn.parser ∧
      (Action.read.turn e conn rest).1.readState.buf.length ≤
        conn.readState.buf.length + readChunk := by
  simp only [Action.turn]
  split
  · exact ⟨rfl, Nat.le_add_right _ _⟩
  · exact ⟨rfl, Nat.le_add_right _ _⟩
  · rename_i chunk input _
    refine ⟨rfl, ?_⟩
    simp only [List.length_append]
    exact Nat.add_le_add_left chunk.length_le _

/-- What the parser leaves behind: a task that is sent to read finds part of a header. -/
structure Parsed (c : Connection) (code : Code) : Prop where
  bounded : c.parser.Bounded
  shaped : Shaped code
  stalled : .act .read ∈ code → c.readState.buf.length ≤ 7

lemma parsed_turn (hbits : 63 ≤ e.bits) (hbounded : conn.parser.Bounded) (key : Key) :
    Parsed (Action.parse.turn e conn [.unlock .parser, .unlock .readState]).1
      ((Action.parse.turn e conn [.unlock .parser, .unlock .readState]).2.code key) := by
  rcases hpump : pump (Parser.sub e.bits) conn.parser conn.readState.unparsed with ⟨q, r, k⟩
  have hq : q.Bounded := (Parser.bounded_outcome hbounded (by rw [outcome, hpump])).1
  rcases r with _ | _ | _
  · obtain ⟨rs, hrs, hpos, hturn⟩ := turn_more [.unlock .parser, .unlock .readState] hpump
    rw [hturn]
    refine ⟨hq, fun _ => .inl rfl, fun _ => ?_⟩
    have hleft := Parser.length_of_asks hbits hq (outcome_again hpump)
    rw [← hrs, ReadState.unparsed, hpos, List.drop_zero] at hleft
    exact hleft
  · obtain ⟨rs, hrs, hturn⟩ := turn_complete [.unlock .parser, .unlock .readState] hpump
    rw [hturn]
    have hnot : .act .read ∉ loadDeflate ++ [.unlock .parser, .unlock .readState] ++
        (accepted conn q).map fun frame => Op.act (Action.handle frame) := by
      simp [loadDeflate]
    exact ⟨hq.takeFrame, shaped_of_notMem hnot, fun hmem => absurd hmem hnot⟩
  · obtain ⟨rs, hrs, hturn⟩ := turn_error [.unlock .parser, .unlock .readState] hpump
    rw [hturn]
    have hnot : .act .read ∉ (Turn.answer (.close 1002 "invalid frame")
        [.unlock .parser, .unlock .readState] []).code key :=
      read_notMem_answer key (by simp) (by simp)
    exact ⟨hq, shaped_of_notMem hnot, fun hmem => absurd hmem hnot⟩

end Turns

namespace System

variable {ι : Type} [DecidableEq ι] {e : Env} {c : Connection} {s s' : System ι} {t : ι}

/-- The read buffer holds a read and part of a header at most, and only the part before a read. -/
structure Slim (e : Env) (c : Connection) (s : System ι) : Prop extends Orderly e c s where
  bounded : s.conn.parser.Bounded
  buffered : s.conn.readState.buf.length ≤ readChunk + 7
  shaped : ∀ t, Shaped (s.rest t)
  stalled : ∀ t, .act .read ∈ s.rest t → s.conn.readState.buf.length ≤ 7

omit [DecidableEq ι] in
lemma Slim.notMem (h : Slim e c s) (ht : holds .readState (s.rest t) = true) {u : ι}
    (hu : u ≠ t) : .act .read ∉ s.rest u :=
  fun hmem => hu (h.owned.unique ((h.shaped u).holds hmem) ht)

/-- A step of `t` that leaves the buffer alone. -/
lemma Slim.beside {code : Code} (h : Slim e c s) (horderly : Orderly e c s')
    (hparser : s'.conn.parser = s.conn.parser) (hstate : s'.conn.readState = s.conn.readState)
    (hrest : s'.rest = Function.update s.rest t code) (hshaped : Shaped code)
    (hread : .act .read ∈ code → .act .read ∈ s.rest t) : Slim e c s' := by
  refine ⟨horderly, hparser ▸ h.bounded, hstate ▸ h.buffered, fun u => ?_, fun u hu => ?_⟩
  · rw [hrest]
    rcases eq_or_ne u t with rfl | hne
    · rw [Function.update_self]
      exact hshaped
    · rw [Function.update_of_ne hne]
      exact h.shaped u
  · rw [hstate]
    rw [hrest] at hu
    rcases eq_or_ne u t with rfl | hne
    · rw [Function.update_self] at hu
      exact h.stalled u (hread hu)
    · rw [Function.update_of_ne hne] at hu
      exact h.stalled u hu

/-- A step of `t`, which has `read_state`. -/
lemma Slim.owning {code : Code} (h : Slim e c s) (horderly : Orderly e c s')
    (ht : holds .readState (s.rest t) = true) (hparsed : Parsed s'.conn code)
    (hbuffered : s'.conn.readState.buf.length ≤ readChunk + 7)
    (hrest : s'.rest = Function.update s.rest t code) : Slim e c s' := by
  refine ⟨horderly, hparsed.bounded, hbuffered, fun u => ?_, fun u hu => ?_⟩
  · rw [hrest]
    rcases eq_or_ne u t with rfl | hne
    · rw [Function.update_self]
      exact hparsed.shaped
    · rw [Function.update_of_ne hne]
      exact h.shaped u
  · rw [hrest] at hu
    rcases eq_or_ne u t with rfl | hne
    · rw [Function.update_self] at hu
      exact hparsed.stalled hu
    · rw [Function.update_of_ne hne] at hu
      exact absurd hu (h.notMem ht hne)

lemma Slim.notRead {code : Code} (h : Slim e c s)
    (horderly : Orderly e c s') (hparser : s'.conn.parser = s.conn.parser)
    (hstate : s'.conn.readState = s.conn.readState)
    (hrest : s'.rest = Function.update s.rest t code) (hnot : .act .read ∉ code) : Slim e c s' :=
  h.beside horderly hparser hstate hrest (shaped_of_notMem hnot) fun hmem => absurd hmem hnot

/-- A task's next operation. -/
lemma Slim.ran {ok : Bool} (hbits : 63 ≤ e.bits) (h : Slim e c s) (hran : Ran e s t ok s') :
    Slim e c s' := by
  have horderly := h.toOrderly.ran hran
  have hshaped := h.shaped t
  have hsound := h.sound t
  cases hran with
  | lock hrest hfree =>
      rw [hrest] at hshaped
      exact h.beside horderly rfl rfl rfl hshaped.behind (mem_behind hrest)
  | unlock hrest =>
      rw [hrest] at hshaped
      exact h.beside horderly rfl rfl rfl hshaped.behind (mem_behind hrest)
  | @turn a rest hrest ha hread =>
      rw [hrest, sound_act] at hsound
      rw [hrest] at hshaped
      have hnot : .act .read ∉ rest := hshaped.tail (by simp)
      by_cases hparse : a = .parse
      · subst hparse
        obtain rfl : rest = _ := hsound.1.2.2
        have hle := length_parse_le e s.conn [.unlock .parser, .unlock .readState]
        -- the parser has looked at what is buffered, and asks for more only if that is little
        have hparsed := parsed_turn hbits h.bounded (e.keys
          (Action.parse.turn e s.conn [.unlock .parser, .unlock .readState]).1.writes)
        exact h.owning horderly (by rw [hrest]; rfl)
          ⟨hparsed.bounded, hparsed.shaped, hparsed.stalled⟩ (hle.trans h.buffered) rfl
      · have hturn : .act .read ∉ (a.turn e s.conn rest).2.code
            (e.keys (a.turn e s.conn rest).1.writes) := read_notMem_turn _ hparse hnot
        by_cases hisRead : a = .read
        · subst hisRead
          obtain rfl : rest = _ := hsound.1.2.2
          -- a read comes behind a parser that has asked for it
          have hstalled := h.stalled t (by rw [hrest]; exact List.mem_cons_self)
          obtain ⟨hparser, hbuffered⟩ := length_read_le e s.conn
            [.unlock .stream, .act .parse, .unlock .parser, .unlock .readState]
          exact h.owning horderly (by rw [hrest]; rfl)
            ⟨hparser ▸ h.bounded, shaped_of_notMem hturn, fun hmem => absurd hmem hturn⟩
            (hbuffered.trans (by omega)) rfl
        · -- no other action touches the buffer
          have hsame : (a.turn e s.conn rest).1.readState = s.conn.readState ∧
              (a.turn e s.conn rest).1.parser = s.conn.parser := turn_readState hparse hisRead
          exact h.notRead horderly hsame.2 hsame.1 rfl hturn
  | @compress job rest hrest hframe =>
      rw [hrest] at hshaped
      have hnot : .act .read ∉ sendFrameInto job ++ rest := by
        intro hmem
        rcases List.mem_append.mp hmem with hmem | hmem
        · have hquiet := quiet_sendFrameInto job .read hmem
          simp [Action.reads] at hquiet
        · exact hshaped.tail (by simp) hmem
      exact h.notRead horderly rfl rfl rfl hnot
  | @uncompressed job rest hrest hframe =>
      rw [hrest] at hshaped
      exact h.notRead horderly rfl rfl rfl (hshaped.tail (by simp))
  | @part job written rest piece hrest hpiece hlt =>
      rw [hrest] at hshaped
      refine h.notRead horderly rfl rfl rfl fun hmem => ?_
      rcases List.mem_cons.mp hmem with hmem | hmem
      · simp at hmem
      · exact hshaped.tail (by simp) hmem
  | @last job written rest hrest =>
      rw [hrest] at hshaped
      exact h.notRead horderly rfl rfl rfl (hshaped.tail (by simp))
  | @fail a rest hrest hok hread =>
      exact h.notRead horderly rfl rfl rfl (act_notMem_unwind .read rest)

/-- Every step keeps the buffer small. -/
lemma Slim.step {a : Act ι} (hbits : 63 ≤ e.bits) (h : Slim e c s) (hstep : s.step e a = some s') :
    Slim e c s' := by
  have horderly := h.toOrderly.step hstep
  cases stepped_of_step hstep with
  | @send t call hidle =>
      refine h.notRead (t := t) horderly rfl rfl rfl ?_
      exact read_notMem_answer _ (by simp) (by simp)
  | @read t hidle => exact h.notRead (t := t) horderly rfl rfl rfl (by simp [readFrame])
  | run hran => exact h.ran hbits hran
  | arrive => exact ⟨horderly, h.bounded, h.buffered, h.shaped, h.stalled⟩
  | hangUp => exact ⟨horderly, h.bounded, h.buffered, h.shaped, h.stalled⟩

/-- **What is buffered does not grow.**  In every run of any tasks, whatever arrives, the read
buffer has at most a read and seven bytes; while a task waits for the peer it has seven at most. -/
theorem buffer_bounded {input : List ReadEvent} {role : Role} {deflate : Bool}
    (hbits : 63 ≤ e.bits)
    (hrun : Runs (System.step e) (fun _ _ => True) (opened (.new input role deflate)) s) :
    s.conn.readState.buf.length ≤ readChunk + 7 ∧
      ∀ t, s.waits t = true → s.conn.readState.buf.length ≤ 7 := by
  have hslim : Slim e (.new input role deflate) s := by
    refine hrun.invariant ⟨orderly_opened, ?_, ?_, fun t => ?_, fun t ht => ?_⟩
      fun _ _ _ h _ hstep => h.step hbits hstep
    · exact trivial
    · exact Nat.zero_le _
    · exact shaped_of_notMem (by simp [opened])
    · simp [opened] at ht
  refine ⟨hslim.buffered, fun t hwaits => ?_⟩
  obtain ⟨rest, hrest⟩ := Watched.act_of_atRead (waits_iff.mp hwaits).1
  exact hslim.stalled t (by rw [hrest]; exact List.mem_cons_self)

/-! ## On a narrow host

One task alone calls `read_message`, and what arrives is read at once. -/

/-- A run of one task brings it to `code`, with the connection as `conn`; it holds what the program
says. -/
def Comes (e : Env) (c : Connection) (t : ι) (code : Code) (conn : Connection) : Prop :=
  ∃ s : System ι, Runs (System.step e) (fun _ _ => True) (opened c) s ∧
    s.rest t = code ∧ s.conn = conn ∧ s.ended = false ∧ ∀ m, holds m code = false → s.owner m = none

section Alone

variable {conn conn' : Connection} {code rest : Code} {m : Mutex} {a : Action}

lemma comes_opened (t : ι) : Comes e c t [] c :=
  ⟨opened c, .refl, rfl, rfl, rfl, fun _ _ => rfl⟩

lemma Comes.begin (h : Comes e c t [] conn) : Comes e c t readFrame conn := by
  obtain ⟨s, hrun, hrest, hconn, hended, hfree⟩ := h
  refine ⟨_, hrun.tail ⟨.read t, trivial, if_pos (by rw [hrest]; rfl)⟩, ?_, hconn, hended,
    fun m _ => hfree m rfl⟩
  exact Function.update_self ..

lemma Comes.arrive (h : Comes e c t code conn) (event : ReadEvent) :
    Comes e c t code { conn with input := conn.input ++ [event] } := by
  obtain ⟨s, hrun, hrest, rfl, hended, hfree⟩ := h
  have hstep : s.step e (.arrive event) =
      some { s with conn := { s.conn with input := s.conn.input ++ [event] } } :=
    if_neg (by simp [hended])
  exact ⟨_, hrun.tail ⟨_, trivial, hstep⟩, hrest, rfl, hended, hfree⟩

lemma Comes.lock (h : Comes e c t (.lock m :: rest) conn) (hm : holds m rest = true) :
    Comes e c t rest conn := by
  obtain ⟨s, hrun, hrest, hconn, hended, hfree⟩ := h
  have hstep : s.step e (.run t true 0) =
      some { s.put t rest with owner := Function.update s.owner m (some t) } := by
    simp [System.step, System.run, hrest, hfree m (by simp)]
  refine ⟨_, hrun.tail ⟨_, trivial, hstep⟩, Function.update_self .., hconn, hended,
    fun m' hm' => ?_⟩
  have hne : m' ≠ m := by
    rintro rfl
    simp [hm] at hm'
  show Function.update s.owner m (some t) m' = none
  rw [Function.update_of_ne hne]
  exact hfree m' (by simp [hm'])

lemma Comes.unlock (h : Comes e c t (.unlock m :: rest) conn) : Comes e c t rest conn := by
  obtain ⟨s, hrun, hrest, hconn, hended, hfree⟩ := h
  have hstep : s.step e (.run t true 0) =
      some { s.put t rest with owner := Function.update s.owner m none } := by
    simp [System.step, System.run, hrest]
  refine ⟨_, hrun.tail ⟨_, trivial, hstep⟩, Function.update_self .., hconn, hended,
    fun m' hm' => ?_⟩
  show Function.update s.owner m none m' = none
  rcases eq_or_ne m' m with rfl | hne
  · exact Function.update_self ..
  · rw [Function.update_of_ne hne]
    exact hfree m' (by simp [hne.symm, hm'])

/-- An action that goes on with `code`; a read finds something. -/
lemma Comes.act (h : Comes e c t (.act a :: rest) conn) (ha : a.job = none)
    (hread : a.isRead = true → conn.input ≠ []) (hturn : a.turn e conn rest = (conn', .go code))
    (hholds : ∀ m, holds m code = holds m rest) : Comes e c t code conn' := by
  obtain ⟨s, hrun, hrest, rfl, hended, hfree⟩ := h
  have hstep : s.step e (.run t true 0) = some (s.follow e t conn' (.go code)) := by
    have hperform : s.perform e t true 0 rest a = some (s.follow e t (a.turn e s.conn rest).1
        (a.turn e s.conn rest).2) := by
      cases a with
      | read => simp [perform, silent, hread rfl]
      | compress job => simp at ha
      | write job written => simp at ha
      | _ => rfl
    rw [hturn] at hperform
    simp only [System.step, System.run, hrest, hperform]
  refine ⟨_, hrun.tail ⟨_, trivial, hstep⟩, Function.update_self .., rfl, hended, fun m hm => ?_⟩
  exact hfree m (by rw [holds_act, ← hholds, hm])

/-- The task is about to read, on a connection that has had all that arrived. -/
structure Asks (e : Env) (c : Connection) (t : ι) (conn : Connection) : Prop where
  comes : Comes e c t (.lock .stream :: atStream) conn
  input : conn.input = []
  pos : conn.readState.pos = 0

/-- The parser has had what is buffered, and asks for more. -/
lemma Comes.parse {q : Parser} {k : ℕ}
    (h : Comes e c t [.act .parse, .unlock .parser, .unlock .readState] conn)
    (hinput : conn.input = [])
    (hpump : pump (Parser.sub e.bits) conn.parser conn.readState.unparsed = (q, none, k)) :
    ∃ conn', Asks e c t conn' ∧ conn'.parser = q ∧
      conn'.readState.buf = conn.readState.unparsed.drop k := by
  obtain ⟨rs, hrs, hpos, hturn⟩ := turn_more [.unlock .parser, .unlock .readState] hpump
  refine ⟨_, ⟨h.act rfl (by simp) hturn fun m => ?_, hinput, hpos⟩, rfl, ?_⟩
  · cases m <;> rfl
  · rw [← hrs, ReadState.unparsed, hpos, List.drop_zero]
    rfl

/-- The first call of `read_message` comes to the stream. -/
lemma asks_opened (e : Env) (role : Role) (deflate : Bool) (t : ι) :
    ∃ conn, Asks e (.new [] role deflate) t conn ∧ conn.parser = .new ∧
      conn.readState.buf = [] := by
  have hopen : Comes e (.new [] role deflate) t [.act .testOpen, .unlock .isOpen]
      (.new [] role deflate) := (comes_opened t).begin.lock rfl
  have hbegin : Comes e (.new [] role deflate) t
      [.act .parse, .unlock .parser, .unlock .readState] (.new [] role deflate) :=
    ((hopen.act rfl (by simp) rfl fun m => by cases m <;> rfl).unlock.lock rfl).lock rfl
  exact hbegin.parse rfl rfl

/-- A read that does not complete a frame. -/
lemma Asks.feed {q : Parser} {k : ℕ} (h : Asks e c t conn) (chunk : Chunk)
    (hpump : pump (Parser.sub e.bits) conn.parser (conn.readState.buf ++ chunk.bytes) =
      (q, none, k)) :
    ∃ conn', Asks e c t conn' ∧ conn'.parser = q ∧
      conn'.readState.buf = (conn.readState.buf ++ chunk.bytes).drop k := by
  have harrived := h.comes.arrive (.data chunk)
  rw [h.input] at harrived
  have hread := ((harrived.lock rfl).act rfl (by simp) rfl fun _ => rfl).unlock
  have hunparsed : ({ conn.readState with buf := conn.readState.buf ++ chunk.bytes } :
      ReadState).unparsed = conn.readState.buf ++ chunk.bytes := by
    rw [ReadState.unparsed, h.pos, List.drop_zero]
  obtain ⟨conn', hasks, hparser, hbuf⟩ := hread.parse rfl (by rw [hunparsed]; exact hpump)
  exact ⟨conn', hasks, hparser, by rw [hbuf, hunparsed]⟩

end Alone

/-- A frame of `2 ^ 62` bytes is announced. -/
def announcement : Chunk := ⟨[0x82, 0x7F, 0x40, 0, 0, 0, 0, 0, 0, 0], by decide, by decide⟩

/-- One byte. -/
def oneByte : Chunk := ⟨[0], by decide, by decide⟩

/-- Once it is announced nothing is taken any more. -/
lemma asks_growing (hbits : e.bits < 63) (role : Role) (deflate : Bool) (t : ι) (n : ℕ) :
    ∃ conn, Asks e (.new [] role deflate) t conn ∧ conn.parser.state = .payload ∧
      conn.parser.payloadRemaining = 2 ^ 62 ∧ conn.readState.buf.length = n := by
  induction n with
  | zero =>
      obtain ⟨conn, hasks, hparser, hbuf⟩ := asks_opened e role deflate t
      have hheader : ∃ q : Parser, pump (Parser.sub e.bits) conn.parser
          (conn.readState.buf ++ announcement.bytes) = (q, none, 10) ∧ q.state = .payload ∧
            q.payloadRemaining = 2 ^ 62 := by
        rw [hparser, hbuf]
        exact ⟨_, rfl, rfl, rfl⟩
      obtain ⟨q, hpump, hstate, hremaining⟩ := hheader
      obtain ⟨conn', hasks', rfl, hbuf'⟩ := hasks.feed announcement hpump
      refine ⟨conn', hasks', hstate, hremaining, ?_⟩
      rw [hbuf', hbuf]
      rfl
  | succ n ih =>
      obtain ⟨conn, hasks, hstate, hremaining, hlength⟩ := ih
      -- the announced length is a multiple of the word size, so the parser asks for nothing
      have hlow : conn.parser.payloadRemaining % 2 ^ e.bits = 0 := by
        rw [hremaining]
        exact Nat.mod_eq_zero_of_dvd (pow_dvd_pow 2 (by omega))
      have hstall : Parser.sub e.bits conn.parser (conn.readState.buf ++ oneByte.bytes) =
          ({ conn.parser with buffer := conn.parser.buffer ++
              Parser.unmaskPiece conn.parser.header conn.parser.buffer.length [] }, none, 0) := by
        rw [Parser.sub, hstate]
        simp only [Parser.parsePayload, hlow]
        simp [hremaining]
      obtain ⟨conn', hasks', hparser, hbuf⟩ :=
        hasks.feed oneByte (pump_of_stall (by simp [oneByte]) hstall)
      refine ⟨conn', hasks', ?_, ?_, ?_⟩
      · rw [hparser]
        exact hstate
      · rw [hparser]
        exact hremaining
      · rw [hbuf, List.drop_zero, List.length_append, hlength]
        rfl

/-- **On a narrow host** the buffer holds whatever the peer sends behind the announcement. -/
theorem buffer_grows (hbits : e.bits < 63) (role : Role) (deflate : Bool) (t : ι) (n : ℕ) :
    ∃ s : System ι, Runs (System.step e) (fun _ _ => True) (opened (.new [] role deflate)) s ∧
      s.conn.readState.buf.length = n := by
  obtain ⟨_, ⟨⟨s, hrun, -, rfl, -, -⟩, -, -⟩, -, -, hlength⟩ :=
    asks_growing hbits role deflate t n
  exact ⟨s, hrun, hlength⟩

/-- **What is buffered does not grow, exactly if `usize` is wide enough.** -/
theorem buffer_bounded_iff (e : Env) (role : Role) (deflate : Bool) (t : ι) :
    (∀ s : System ι, Runs (System.step e) (fun _ _ => True) (opened (.new [] role deflate)) s →
        s.conn.readState.buf.length ≤ readChunk + 7 ∧
          ∀ u, s.waits u = true → s.conn.readState.buf.length ≤ 7) ↔
      63 ≤ e.bits := by
  refine ⟨fun h => ?_, fun hbits s hrun => buffer_bounded hbits hrun⟩
  by_contra hnarrow
  obtain ⟨s, hrun, hlength⟩ :=
    buffer_grows (Nat.lt_of_not_le hnarrow) role deflate t (readChunk + 8)
  have hle := (h s hrun).1
  omega

end System

end Threads

end Wscpp.Rs
