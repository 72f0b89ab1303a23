import Wscpp.Cpp.Callbacks

/-!
# How often `on_close` is called

`close`, `fail_with_close` and `handle_close_frame` call `on_close` at their end, a read that fails
does not.  `fail_with_close` calls it whatever its tests of the flags have given, and
`handle_close_frame` tests nothing; only `close` is stopped by a flag.  So `on_close` is called
exactly once in the runs in which the functions do not overlap where the flags do not show yet, and
no read fails on a connection that is open (`Orderly`):

* `close` passes its second test only if no other call of it is past that test with `is_closing_`
  not yet set, and the reader is not in `handle_close_frame` or `fail_with_close` before
  `is_open_ = false`;
* the reader receives a CLOSE frame, or a frame or message that fails a check, only if no call of
  `close` is between its tests and `socket_.close()`;
* `handle_close_frame` clears `is_open_` only if no call of `close` is between its tests;
* after a failed read the reader clears `is_open_` only if that is clear already or a call of
  `close` is going to clear it.

Each of these speaks of other threads and of what lies below on the same stack: a handler of
`on_error` that closes the connection inside `fail_with_close` is an overlap (`closeInOnError`).

That functions become due one at a time (`System.Settled`) is then a matter of the flags: `close`
finds `is_open_` set and `is_closing_` not, and the reader has found `is_open_` set before it waits
(`Shown`).
-/

namespace Wscpp.Cpp.Lifecycle

open Moves

/-! ## Places -/

/-- What is left of a call of `close`. -/
def inClose (c : List Instr) : Bool := Call.close.program.tails.contains c

/-- `close` has passed its test of `is_open_` and not yet made that of `is_closing_`. -/
def betweenTests (c : List Instr) : Bool :=
  inClose c && c.head? == some (.require .notClosing .leave)

/-- `close` has passed its tests and not yet set `is_closing_`. -/
def unmarked (c : List Instr) : Bool := inClose c && c.head? == some .setClosing

/-- `close` is past its tests. -/
def pastTests (c : List Instr) : Bool := inClose c && !c.contains (.require .notClosing .leave)

/-- `close` is between its tests and `is_open_ = false`. -/
def shutting (c : List Instr) : Bool := pastTests c && c.contains .clearOpen

/-- `close` is between its tests and `socket_.close()`. -/
def closing (c : List Instr) : Bool := pastTests c && c.contains .closeSocket

/-- `handle_close_frame` or `fail_with_close` has not yet cleared `is_open_`. -/
def answering (c : List Instr) : Bool :=
  (Arrival.close.handling.tails ++ Arrival.violation.handling.tails).contains c &&
    c.contains .clearOpen

/-- `handle_close_frame` clears `is_open_` next. -/
def echoEnd (c : List Instr) : Bool :=
  Arrival.close.handling.tails.contains c && c.head? == some .clearOpen

/-- After a failed read, the reader clears `is_open_` next. -/
def lostEnd (c : List Instr) : Bool :=
  Arrival.lost.handling.tails.contains c && c.head? == some .clearOpen

/-- `fail_with_close` is going to clear `is_open_`, with `is_closing_` set or past a test that
failed. -/
def failing (c : List Instr) : Bool :=
  Arrival.violation.handling.tails.contains c && c.contains .clearOpen && !c.contains .setClosing

/-- The reader waits for a frame. -/
def waiting (c : List Instr) : Bool := c.head? == some .receive

/-- The flag that an instruction tests. -/
def Instr.tested? : Instr → Option Flag
  | require flag _ => some flag
  | _ => none

/-- What holds at every place and of each way on from it, about the ends of a connection. -/
structure CheckedEnds : Prop where
  /-- A function becomes due at the second test of `close`, and when the reader is given
  something. -/
  commit_along : checks (fun _ i rest d => due (i :: rest) || !due d ||
    (i == .require .notClosing .leave && betweenTests (i :: rest)) || i == .receive) places = true
  tested_along : checks (fun isOpen i _ d =>
    !betweenTests d || (isOpen && i.tested? == some .isOpen)) places = true
  waiting_along : checks (fun isOpen i _ d =>
    !waiting d || (isOpen && i.tested? == some .isOpen)) places = true
  /-- `is_closing_` is set behind the tests, and then known to be set. -/
  marked_along : checks (fun _ i rest d =>
    !(shutting d && !unmarked d) || i == .setClosing ||
      (shutting (i :: rest) && !unmarked (i :: rest))) places = true
  /-- `fail_with_close` has set `is_closing_`, or one of its tests has failed. -/
  failing_along : checks (fun _ i rest d =>
    !failing d || i == .setClosing || failing (i :: rest) ||
      (i.tested?.isSome && d != rest)) places = true
  unmarked_along : checks (fun _ i rest _ =>
    !unmarked (i :: rest) || i == .setClosing) places = true
  closing_along : checks (fun _ i rest d =>
    !closing (i :: rest) || i == .closeSocket || closing d) places = true
  /-- Who clears `is_open_`. -/
  clearOpen_along : checks (fun _ i rest d => i != .clearOpen || echoEnd (i :: rest) ||
    lostEnd (i :: rest) || failing (i :: rest) ||
      (shutting (i :: rest) && !unmarked (i :: rest) && closing d)) places = true
  stray_facts : places.all (fun c => c.head? != some .clearOpen || due c || lostEnd c) = true
  /-- Who is due and has not yet cleared `is_open_`. -/
  due_facts : places.all (fun c => !(due c && clears c) ||
    (shutting c && closing c) || answering c) = true
  shutting_facts : places.all (fun c => !shutting c || due c) = true
  /-- What the reader alone does. -/
  reader_facts : places.all (fun c =>
    !(answering c || echoEnd c || lostEnd c || failing c) || looping c) = true

lemma checkedEnds : CheckedEnds := by
  constructor <;> decide +kernel

/-- Only a CLOSE and a violation make the reader call `on_close`. -/
lemma Arrival.of_due {a : Arrival} (h : due a.handling = true) : a = .close ∨ a = .violation := by
  cases a with
  | close => exact .inl rfl
  | violation => exact .inr rfl
  | _ => exact absurd h (by decide)

lemma Call.program_ends (c : Call) : shutting c.program = false ∧ failing c.program = false ∧
    betweenTests c.program = false ∧ waiting c.program = false := by
  cases c <;> decide

namespace System

/-! ## Orderly runs -/

section Conditions

variable {ι : Type}

/-- Some function under way is at such a place. -/
def Somewhere (s : System ι) (P : List Instr → Bool) : Prop := ∃ t, ∃ f ∈ s.stack t, P f.rest = true

/-- What is left of the function that a thread is in. -/
def top (s : System ι) (t : ι) : List Instr :=
  match s.stack t with
  | .code c :: _ => c
  | _ => []

/-- `close` passes its second test only if no other call of it has passed that test and not yet set
`is_closing_`, and the reader is not answering a CLOSE or a violation. -/
def ClosesApart (s : System ι) (t : ι) : Prop :=
  betweenTests (s.top t) = true → s.isClosing = false →
    ¬s.Somewhere unmarked ∧ ¬s.Somewhere answering

/-- The reader is given a CLOSE or a violation only if no `close` is between its tests and
`socket_.close()`. -/
def ReceivesApart (s : System ι) (t : ι) (arrival : Arrival) : Prop :=
  waiting (s.top t) = true → s.socketOpen = true → arrival = .close ∨ arrival = .violation →
    ¬s.Somewhere closing

/-- `handle_close_frame` clears `is_open_` only if no `close` is between its tests. -/
def EchoesApart (s : System ι) (t : ι) : Prop :=
  echoEnd (s.top t) = true → ¬s.Somewhere betweenTests

/-- A read fails only on a connection that is closed, or that a call of `close` is closing. -/
def LostWhenClosing (s : System ι) (t : ι) : Prop :=
  lostEnd (s.top t) = true → s.isOpen = false ∨ s.Somewhere shutting

/-- The functions that end the connection do not overlap, and no read fails while it is open. -/
def Orderly (s : System ι) : Act ι → Prop
  | .run t arrival _ =>
      s.ClosesApart t ∧ s.ReceivesApart t arrival ∧ s.EchoesApart t ∧ s.LostWhenClosing t
  | _ => True

lemma top_eq {s : System ι} {t : ι} {c : List Instr} {below : List Frame}
    (h : s.stack t = .code c :: below) : s.top t = c := by
  simp only [top, h]

instance [Fintype ι] (s : System ι) (P : List Instr → Bool) : Decidable (s.Somewhere P) :=
  inferInstanceAs (Decidable (∃ t, ∃ f ∈ s.stack t, P f.rest = true))

instance [Fintype ι] (s : System ι) (a : Act ι) : Decidable (s.Orderly a) :=
  match a with
  | .call _ _ => inferInstanceAs (Decidable True)
  | .turn => inferInstanceAs (Decidable True)
  | .run t arrival _ => inferInstanceAs (Decidable
      ((betweenTests (s.top t) = true → s.isClosing = false →
          ¬s.Somewhere unmarked ∧ ¬s.Somewhere answering) ∧
        (waiting (s.top t) = true → s.socketOpen = true → arrival = .close ∨ arrival = .violation →
          ¬s.Somewhere closing) ∧
        (echoEnd (s.top t) = true → ¬s.Somewhere betweenTests) ∧
        (lostEnd (s.top t) = true → s.isOpen = false ∨ s.Somewhere shutting)))
  | .ret _ => inferInstanceAs (Decidable True)

end Conditions

/-! ## What the flags show -/

section Flags

variable {ι : Type} [DecidableEq ι] {opener reader : ι} {s s' : System ι} {t : ι}

/-- What the flags tell of the functions that end the connection. -/
structure Shown (s : System ι) : Prop where
  /-- `close` has set `is_closing_` before it clears `is_open_`. -/
  marked : ∀ t, ∀ f ∈ s.stack t, shutting f.rest = true → unmarked f.rest = false →
    s.isClosing = true
  failing : ∀ t, ∀ f ∈ s.stack t, Lifecycle.failing f.rest = true →
    s.isClosing = true ∨ s.isOpen = false
  /-- What `close` has found at its first test is still so at the second, or that one fails. -/
  tested : ∀ t, ∀ f ∈ s.stack t, betweenTests f.rest = true →
    s.isOpen = true ∨ s.isClosing = true ∨ s.Somewhere unmarked
  /-- The connection is open while the reader waits, or a call of `close` is closing it. -/
  waiting : ∀ t, ∀ f ∈ s.stack t, Lifecycle.waiting f.rest = true → s.socketOpen = true →
    s.isOpen = true ∨ s.Somewhere closing

lemma shown_opened (opener : ι) : (opened opener).Shown where
  marked t f hf hshutting := by
    obtain ⟨-, rfl⟩ := mem_opened hf
    exact absurd hshutting (by decide)
  failing t f hf hfailing := by
    obtain ⟨-, rfl⟩ := mem_opened hf
    exact absurd hfailing (by decide)
  tested _ _ _ _ := .inl rfl
  waiting _ _ _ _ _ := .inl rfl

/-- The members have not changed, a function has come or gone that ends nothing. -/
lemma Shown.put {stack : List Frame} (h : s.Shown)
    (hnew : ∀ f ∈ stack, f ∈ s.stack t ∨ (shutting f.rest = false ∧
      Lifecycle.failing f.rest = false ∧ betweenTests f.rest = false ∧
      Lifecycle.waiting f.rest = false))
    (hgone : ∀ f ∈ s.stack t, f ∈ stack ∨ (unmarked f.rest = false ∧ closing f.rest = false)) :
    (s.put t stack).Shown := by
  have hstack : (s.put t stack).stack = Function.update s.stack t stack := rfl
  -- a place at which somebody was is not left, unless the function that has gone was there
  have hstays : ∀ P : List Instr → Bool, (∀ f ∈ s.stack t, f ∈ stack ∨ P f.rest = false) →
      s.Somewhere P → (s.put t stack).Somewhere P := by
    rintro P hP ⟨u, f, hf, hfP⟩
    refine ⟨u, f, ?_, hfP⟩
    rw [hstack]
    rcases eq_or_ne u t with rfl | hne
    · rw [Function.update_self]
      exact (hP f hf).resolve_right (by simp [hfP])
    · rwa [Function.update_of_ne hne]
  have htested : ∀ u, ∀ f ∈ s.stack u, betweenTests f.rest = true →
      s.isOpen = true ∨ s.isClosing = true ∨ (s.put t stack).Somewhere unmarked :=
    fun u f hf htested => (h.tested u f hf htested).imp id
      (Or.imp id (hstays unmarked fun f hf => (hgone f hf).imp id And.left))
  have hwaiting : ∀ u, ∀ f ∈ s.stack u, Lifecycle.waiting f.rest = true → s.socketOpen = true →
      s.isOpen = true ∨ (s.put t stack).Somewhere closing :=
    fun u f hf hwaiting hsocket => (h.waiting u f hf hwaiting hsocket).imp id
      (hstays closing fun f hf => (hgone f hf).imp id And.right)
  refine ⟨forall_put hstack (fun f hf hshutting => ?_) (fun u _ => h.marked u),
    forall_put hstack (fun f hf hfailing => ?_) (fun u _ => h.failing u),
    forall_put hstack (fun f hf hat => ?_) (fun u _ => htested u),
    forall_put hstack (fun f hf hat => ?_) (fun u _ => hwaiting u)⟩
  · rcases hnew f hf with hold | hnot
    · exact h.marked t f hold hshutting
    · simp [hnot] at hshutting
  · rcases hnew f hf with hold | hnot
    · exact h.failing t f hold hfailing
    · simp [hnot] at hfailing
  · rcases hnew f hf with hold | hnot
    · exact htested t f hold hat
    · simp [hnot] at hat
  · rcases hnew f hf with hold | hnot
    · exact hwaiting t f hold hat
    · simp [hnot] at hat

section Run

variable {arrival : Arrival} {ok : Bool} {i : Instr} {rest : List Instr} {below : List Frame}

/-- A function stays where it is while another runs. -/
lemma Somewhere.ran {P : List Instr → Bool} (h : s.Somewhere P)
    (hstack : s.stack t = .code (i :: rest) :: below)
    (htop : P (i :: rest) = true → P (s.next arrival ok rest i) = true) :
    (s.ran t arrival ok i rest below).Somewhere P := by
  obtain ⟨u, f, hf, hP⟩ := h
  rcases eq_or_ne u t with rfl | hne
  · rw [hstack, List.mem_cons] at hf
    rcases hf with rfl | hf
    · refine ⟨u, .code (s.next arrival ok rest i), ?_, htop hP⟩
      rw [ran_stack, Function.update_self]
      exact List.mem_append_right _ List.mem_cons_self
    · refine ⟨u, f, ?_, hP⟩
      rw [ran_stack, Function.update_self]
      exact List.mem_append_right _ (List.mem_cons_of_mem _ hf)
  · refine ⟨u, f, ?_, hP⟩
    rwa [ran_stack, Function.update_of_ne hne]

variable (hk : Kept opener reader s)
  (hstack : s.stack t = .code (i :: rest) :: below)

include hk hstack

lemma Shown.marked_ran (h : s.Shown) : ∀ u, ∀ f ∈ (s.ran t arrival ok i rest below).stack u,
    shutting f.rest = true → unmarked f.rest = false →
      (s.ran t arrival ok i rest below).isClosing = true := by
  refine forall_ran (fun hshutting hmarked => ?_) (fun hshutting => absurd hshutting (by decide))
    (fun f hf h1 h2 => ran_isClosing (h.marked t f (mem_of_cons hstack hf) h1 h2))
    (fun u _ f hf h1 h2 => ran_isClosing (h.marked u f hf h1 h2))
  have hcheck := of_checks s arrival ok checkedEnds.marked_along (hk.mem_places hstack)
  simp only [Frame.rest] at hshutting hmarked
  simp only [hshutting, hmarked, Bool.not_false, Bool.and_self, Bool.not_true, Bool.false_or,
    Bool.or_eq_true, beq_iff_eq, Bool.and_eq_true, Bool.not_eq_true'] at hcheck
  rcases hcheck with rfl | ⟨h1, h2⟩
  · rfl
  · exact ran_isClosing (h.marked t _ (top_mem hstack) h1 h2)

lemma Shown.failing_ran (h : s.Shown) : ∀ u, ∀ f ∈ (s.ran t arrival ok i rest below).stack u,
    Lifecycle.failing f.rest = true →
      (s.ran t arrival ok i rest below).isClosing = true ∨
        (s.ran t arrival ok i rest below).isOpen = false := by
  refine forall_ran (fun hfailing => ?_) (fun hfailing => absurd hfailing (by decide))
    (fun f hf h1 => (h.failing t f (mem_of_cons hstack hf) h1).imp ran_isClosing ran_isOpen)
    (fun u _ f hf h1 => (h.failing u f hf h1).imp ran_isClosing ran_isOpen)
  have hcheck := of_checks s arrival ok checkedEnds.failing_along (hk.mem_places hstack)
  simp only [Frame.rest] at hfailing
  simp only [hfailing, Bool.not_true, Bool.false_or, Bool.or_eq_true, beq_iff_eq,
    Bool.and_eq_true, bne_iff_ne] at hcheck
  rcases hcheck with (rfl | h1) | ⟨h1, h2⟩
  · exact .inl rfl
  · exact (h.failing t _ (top_mem hstack) h1).imp ran_isClosing ran_isOpen
  · -- the test has failed
    cases i with
    | require flag x =>
        have hflag : s.holds flag = false := by
          by_contra hholds
          exact h2 (if_pos (by simpa using hholds))
        cases flag with
        | isOpen => exact .inr (ran_isOpen hflag)
        | notClosing => exact .inl (ran_isClosing (by simpa [holds] using hflag))
    | _ => simp [Instr.tested?] at h1

/-- Who clears `is_open_`. -/
lemma Kept.clearOpen_top (hi : i = .clearOpen) :
    echoEnd (i :: rest) = true ∨ lostEnd (i :: rest) = true ∨
      Lifecycle.failing (i :: rest) = true ∨ (shutting (i :: rest) = true ∧
        unmarked (i :: rest) = false ∧ closing rest = true) := by
  subst hi
  have hcheck := of_checks s .silent true checkedEnds.clearOpen_along (hk.mem_places hstack)
  simpa [next, or_assoc, and_assoc] using hcheck

/-- While a call of `close` is between its tests, `is_open_` is cleared only if the second will
fail. -/
lemma Shown.tested_clearOpen (h : s.Shown) (horderly : s.Orderly (.run t arrival ok))
    (hi : i = .clearOpen) (hopen : s.isOpen = true) (htested : s.Somewhere betweenTests) :
    s.isClosing = true ∨ s.Somewhere unmarked := by
  obtain ⟨-, -, hechoes, hlost⟩ := horderly
  rw [EchoesApart, top_eq hstack] at hechoes
  rw [LostWhenClosing, top_eq hstack] at hlost
  have hof : ∀ u, ∀ f ∈ s.stack u, shutting f.rest = true →
      s.isClosing = true ∨ s.Somewhere unmarked := by
    intro u f hf hshutting
    cases hmarked : unmarked f.rest with
    | false => exact .inl (h.marked u f hf hshutting hmarked)
    | true => exact .inr ⟨u, f, hf, hmarked⟩
  rcases hk.clearOpen_top hstack hi with hecho | hlostEnd | hfailing | ⟨hshutting, -, -⟩
  · exact absurd htested (hechoes hecho)
  · obtain ⟨u, f, hf, hshutting⟩ := (hlost hlostEnd).resolve_left (by simp [hopen])
    exact hof u f hf hshutting
  · exact .inl ((h.failing t _ (top_mem hstack) hfailing).resolve_right (by simp [hopen]))
  · exact hof t _ (top_mem hstack) hshutting

/-- While the reader waits, only `close` clears `is_open_`. -/
lemma Kept.waiting_clearOpen {u : ι} {f : Frame} (hi : i = .clearOpen) (hf : f ∈ s.stack u)
    (hwaiting : Lifecycle.waiting f.rest = true) : closing rest = true := by
  have hloud : loud f.rest = true := by
    rcases f with c | _
    · rcases c with _ | ⟨j, c⟩
      · simp [Frame.rest, Lifecycle.waiting] at hwaiting
      · obtain rfl : j = .receive := by simpa [Frame.rest, Lifecycle.waiting] using hwaiting
        rfl
    · simp [Frame.rest, Lifecycle.waiting] at hwaiting
  obtain ⟨rfl, halone, -⟩ := hk.alone u f hf hloud
  -- otherwise the reader, which waits, would be about to clear it
  have hnot : looping (i :: rest) = false := by
    by_contra hlooping
    obtain ⟨rfl, -⟩ := hk.reader_of_mem (top_mem hstack)
      (.inl (by simpa [Frame.rest] using hlooping))
    rw [hstack, List.cons.injEq] at halone
    obtain ⟨rfl, -⟩ := halone
    subst hi
    simp [Frame.rest, Lifecycle.waiting] at hwaiting
  have hreader := List.all_eq_true.mp checkedEnds.reader_facts _ (hk.mem_places hstack)
  simp only [hnot, Bool.or_false, Bool.not_eq_true', Bool.or_eq_false_iff] at hreader
  rcases hk.clearOpen_top hstack hi with h1 | h1 | h1 | ⟨-, -, h1⟩
  · simp [hreader] at h1
  · simp [hreader] at h1
  · simp [hreader] at h1
  · exact h1

lemma Shown.tested_ran (h : s.Shown) (horderly : s.Orderly (.run t arrival ok)) :
    ∀ u, ∀ f ∈ (s.ran t arrival ok i rest below).stack u, betweenTests f.rest = true →
      (s.ran t arrival ok i rest below).isOpen = true ∨
        (s.ran t arrival ok i rest below).isClosing = true ∨
        (s.ran t arrival ok i rest below).Somewhere unmarked := by
  -- whoever has passed its tests and not marked the closing either marks it now or is still there
  have hunmarked : s.Somewhere unmarked → (s.ran t arrival ok i rest below).isClosing = true ∨
      (s.ran t arrival ok i rest below).Somewhere unmarked := by
    intro hsome
    have hcheck := of_checks s arrival ok checkedEnds.unmarked_along (hk.mem_places hstack)
    simp only [Bool.or_eq_true, Bool.not_eq_true', beq_iff_eq] at hcheck
    rcases hcheck with hnot | rfl
    · exact .inr (hsome.ran hstack (by simp [hnot]))
    · exact .inl rfl
  have hkeep : ∀ u, ∀ f ∈ s.stack u, betweenTests f.rest = true →
      (s.ran t arrival ok i rest below).isOpen = true ∨
        (s.ran t arrival ok i rest below).isClosing = true ∨
        (s.ran t arrival ok i rest below).Somewhere unmarked := by
    intro u f hf htested
    rcases h.tested u f hf htested with hopen | hclosing | hsome
    · by_cases hi : i = .clearOpen
      · right
        -- `is_open_` is cleared while someone is between its tests
        rcases h.tested_clearOpen hk hstack horderly hi hopen ⟨u, f, hf, htested⟩ with h1 | h1
        · exact .inl (ran_isClosing h1)
        · exact hunmarked h1
      · exact .inl ((effect_isOpen s t hi).trans hopen)
    · exact .inr (.inl (ran_isClosing hclosing))
    · exact .inr (hunmarked hsome)
  -- for the thread that runs, it has just found `is_open_` set
  refine forall_ran (fun htested => .inl ?_) (fun htested => absurd htested (by decide))
    (fun f hf => hkeep t f (mem_of_cons hstack hf)) (fun u _ => hkeep u)
  have hcheck := of_checks s arrival ok checkedEnds.tested_along (hk.mem_places hstack)
  simp only [Frame.rest] at htested
  simp only [htested, Bool.not_true, Bool.false_or, Bool.and_eq_true, beq_iff_eq] at hcheck
  refine (effect_isOpen s t ?_).trans hcheck.1
  rintro rfl
  simp [Instr.tested?] at hcheck

lemma Shown.waiting_ran (h : s.Shown) :
    ∀ u, ∀ f ∈ (s.ran t arrival ok i rest below).stack u, Lifecycle.waiting f.rest = true →
      (s.ran t arrival ok i rest below).socketOpen = true →
      (s.ran t arrival ok i rest below).isOpen = true ∨
        (s.ran t arrival ok i rest below).Somewhere closing := by
  have hkeep : ∀ u, ∀ f ∈ s.stack u, Lifecycle.waiting f.rest = true →
      (s.ran t arrival ok i rest below).socketOpen = true →
      (s.ran t arrival ok i rest below).isOpen = true ∨
        (s.ran t arrival ok i rest below).Somewhere closing := by
    intro u f hf hwaiting hsocket
    have hi : i ≠ .closeSocket := by
      rintro rfl
      exact absurd hsocket Bool.false_ne_true
    have hbefore : s.socketOpen = true := (ran_socketOpen hi).symm.trans hsocket
    rcases h.waiting u f hf hwaiting hbefore with hopen | hsome
    · by_cases hclear : i = .clearOpen
      · have hnext := hk.waiting_clearOpen hstack hclear hf hwaiting
        subst hclear
        refine .inr ⟨t, .code rest, ?_, hnext⟩
        rw [ran_stack, Function.update_self]
        exact List.mem_append_right _ List.mem_cons_self
      · exact .inl ((effect_isOpen s t hclear).trans hopen)
    · refine .inr (hsome.ran hstack fun htop => ?_)
      have hcheck := of_checks s arrival ok checkedEnds.closing_along (hk.mem_places hstack)
      simpa [htop, hi] using hcheck
  refine forall_ran (fun hwaiting _ => .inl ?_) (fun hwaiting => absurd hwaiting (by decide))
    (fun f hf => hkeep t f (mem_of_cons hstack hf)) (fun u _ => hkeep u)
  have hcheck := of_checks s arrival ok checkedEnds.waiting_along (hk.mem_places hstack)
  simp only [Frame.rest] at hwaiting
  simp only [hwaiting, Bool.not_true, Bool.false_or, Bool.and_eq_true, beq_iff_eq] at hcheck
  refine (effect_isOpen s t ?_).trans hcheck.1
  rintro rfl
  simp [Instr.tested?] at hcheck

end Run

/-- **One orderly step.** -/
lemma Shown.step {a : Act ι} (h : s.Shown) (hk : Kept opener reader s) (horderly : s.Orderly a)
    (hstep : s.step reader a = some s') : s'.Shown := by
  cases stepped_of_step hstep with
  | @call t c hstack =>
      exact h.put (List.forall_mem_cons.mpr ⟨.inr c.program_ends, fun f hf => .inl hf⟩)
        fun f hf => .inl (List.mem_cons_of_mem _ hf)
  | turn hidle hreading =>
      refine h.put (List.forall_mem_cons.mpr ⟨.inr (by decide +kernel), by simp⟩) fun f hf => ?_
      rw [hidle] at hf
      simp at hf
  | run hstack hfree =>
      exact ⟨h.marked_ran hk hstack, h.failing_ran hk hstack, h.tested_ran hk hstack horderly,
        h.waiting_ran hk hstack⟩
  | @ret t f below hstack hf =>
      refine h.put (fun g hg => .inl (mem_of_cons hstack hg)) fun g hg => ?_
      rw [hstack, List.mem_cons] at hg
      rcases hg with rfl | hg
      · right
        rcases hf with rfl | rfl <;> decide
      · exact .inl hg

section Settled

variable {arrival : Arrival} {ok : Bool} {i : Instr} {rest : List Instr} {below : List Frame}

lemma due_rest (f : Frame) : due f.rest = f.due := by
  rcases f with c | _ <;> rfl

omit [DecidableEq ι] in
lemma pending_eq_zero (h : ∀ f ∈ s.stack t, f.due = true → False) : s.pending t = 0 :=
  List.countP_eq_zero.mpr h

variable (hk : Kept opener reader s)

include hk

/-- A function that is due has not cleared `is_open_` yet while that is set: it is a call of `close`
past its tests, or the reader answers. -/
lemma Kept.of_due (ho : s.Once) (hopen : s.isOpen = true) {f : Frame} (hf : f ∈ s.stack t)
    (hdue : f.due = true) :
    (shutting f.rest = true ∧ closing f.rest = true) ∨ answering f.rest = true := by
  have hclears := (ho.cleared t f hf hdue).resolve_right (by simp [hopen])
  have hfacts := List.all_eq_true.mp checkedEnds.due_facts _ (hk.place_of_mem hf)
  simpa [due_rest, hdue, hclears] using hfacts

variable (hstack : s.stack t = .code (i :: rest) :: below)

include hstack

/-- `close` passes its second test: the connection is open, and no function is due. -/
lemma Shown.passed (h : s.Shown) (ho : s.Once) (hplace : betweenTests (i :: rest) = true)
    (hclosing : s.isClosing = false) (hapart : ¬s.Somewhere unmarked ∧ ¬s.Somewhere answering) :
    s.isOpen = true ∧ ∀ u, s.pending u = 0 := by
  have hopen : s.isOpen = true := by
    rcases h.tested t _ (top_mem hstack) hplace with hopen | hset | hsome
    · exact hopen
    · simp [hclosing] at hset
    · exact absurd hsome hapart.1
  refine ⟨hopen, fun u => pending_eq_zero fun f hf hdue => ?_⟩
  rcases hk.of_due ho hopen hf hdue with ⟨hshutting, -⟩ | hanswering
  · cases hmarked : unmarked f.rest with
    | true => exact hapart.1 ⟨u, f, hf, hmarked⟩
    | false => simp [h.marked u f hf hshutting hmarked] at hclosing
  · exact hapart.2 ⟨u, f, hf, hanswering⟩

/-- The reader is given a CLOSE or a violation: the connection is open, and no function is due. -/
lemma Shown.received (h : s.Shown) (ho : s.Once) (hi : i = .receive) (hsocket : s.socketOpen = true)
    (hapart : ¬s.Somewhere closing) : s.isOpen = true ∧ ∀ u, s.pending u = 0 := by
  subst hi
  have hopen : s.isOpen = true :=
    (h.waiting t _ (top_mem hstack) rfl hsocket).resolve_right hapart
  refine ⟨hopen, fun u => pending_eq_zero fun f hf hdue => ?_⟩
  rcases hk.of_due ho hopen hf hdue with ⟨-, hclosing⟩ | hanswering
  · exact hapart ⟨u, f, hf, hclosing⟩
  · -- the reader has no other function below the one that waits
    obtain ⟨rfl, halone, -⟩ := hk.alone t _ (top_mem hstack) rfl
    have hlooping := List.all_eq_true.mp checkedEnds.reader_facts _ (hk.place_of_mem hf)
    simp only [hanswering, Bool.true_or, Bool.not_true, Bool.false_or] at hlooping
    obtain ⟨rfl, -⟩ := hk.reader_of_mem hf (.inl hlooping)
    rw [halone, List.mem_singleton] at hf
    subst hf
    simp [Frame.due, due] at hdue

/-- A function becomes due. -/
lemma Shown.committed (h : s.Shown) (ho : s.Once) (horderly : s.Orderly (.run t arrival ok))
    (hbefore : due (i :: rest) = false) (hafter : due (s.next arrival ok rest i) = true) :
    s.isOpen = true ∧ ∀ u, s.pending u = 0 := by
  obtain ⟨hcloses, hreceives, -, -⟩ := horderly
  rw [ClosesApart, top_eq hstack] at hcloses
  rw [ReceivesApart, top_eq hstack] at hreceives
  have hcheck := of_checks s arrival ok checkedEnds.commit_along (hk.mem_places hstack)
  simp only [hbefore, hafter, Bool.not_true, Bool.or_self, Bool.false_or, Bool.or_eq_true,
    Bool.and_eq_true, beq_iff_eq] at hcheck
  rcases hcheck with ⟨rfl, hplace⟩ | rfl
  · have hclosing : s.isClosing = false := by
      by_contra hset
      simp [next, holds, hset, Exit.rest, due] at hafter
    exact h.passed hk hstack ho hplace hclosing (hcloses hplace hclosing)
  · simp only [next] at hafter
    split_ifs at hafter with hsocket
    · exact h.received hk hstack ho rfl hsocket (hreceives rfl hsocket (Arrival.of_due hafter))
    · simp [Arrival.handling, due] at hafter

end Settled

/-- **In an orderly step functions become due one at a time.** -/
lemma Shown.settled {a : Act ι} (h : s.Shown) (hk : Kept opener reader s) (ho : s.Once)
    (horderly : s.Orderly a) : s.Settled a := by
  cases a with
  | run t arrival ok =>
      constructor
      · intro hcommits
        unfold commits at hcommits
        split at hcommits
        · rename_i i rest below hstack
          simp only [Bool.and_eq_true, Bool.not_eq_true'] at hcommits
          exact h.committed hk hstack ho horderly hcommits.1 hcommits.2
        · simp at hcommits
      · intro hstrays
        unfold strays at hstrays
        split at hstrays
        · rename_i rest below hstack
          have hcheck := List.all_eq_true.mp checkedEnds.stray_facts _ (hk.mem_places hstack)
          simp only [Bool.not_eq_true'] at hstrays
          have hplace : lostEnd (.clearOpen :: rest) = true := by
            simpa [due, hstrays] using hcheck
          obtain ⟨-, -, -, hlost⟩ := horderly
          rw [LostWhenClosing, top_eq hstack] at hlost
          -- Whoever is going to shut the socket is going to call `on_close`.
          obtain hclosing | ⟨u, f, hf, hshutting⟩ := hlost hplace
          · exact Or.inl hclosing
          · refine Or.inr ⟨u, fun hzero => ?_⟩
            have hdue := List.all_eq_true.mp checkedEnds.shutting_facts _ (hk.place_of_mem hf)
            simp only [hshutting, Bool.not_true, Bool.false_or] at hdue
            exact List.countP_eq_zero.mp hzero f hf (due_rest f ▸ hdue)
        · simp at hstrays
  | _ => trivial

/-- **`on_close` is called once.**  In every orderly run it is never called twice, and it has been
called whenever the connection is not open and no function of the library is under way. -/
theorem onClose_once (opener reader : ι) (hne : opener ≠ reader) (s : System ι)
    (hrun : Runs (step reader) Orderly (opened opener) s) :
    s.closes ≤ 1 ∧ (s.isOpen = false → (∀ t, s.stack t = []) → s.closes = 1) := by
  have hall : s.Once ∧ s.Shown ∧ Kept opener reader s := by
    refine hrun.invariant (I := fun s => s.Once ∧ s.Shown ∧ Kept opener reader s)
      ⟨once_opened opener, shown_opened opener, kept_opened hne⟩ ?_
    rintro s a s' ⟨ho, hs, hk⟩ horderly hstep
    exact ⟨ho.step (hs.settled hk ho horderly) hstep, hs.step hk horderly hstep, hk.step hstep⟩
  have hinv := hall.1
  refine ⟨?_, fun hclosed hidle => ?_⟩
  · rcases hinv.called with h | ⟨h, -⟩
    · omega
    · omega
  · apply (hinv.closed hclosed).resolve_right
    rintro ⟨t, ht⟩
    simp [pending, hidle t] at ht

end Flags

end System

/-- The application closes; the read that fails then is no second end of the session. -/
def closeByCall : List (Act Bool) :=
  openAndWait ++ .call false .close :: runs false 8 .silent ++ runs true 2 .lost ++
    .ret true :: runs true 2 .lost ++ .ret true :: runs false 2 .silent ++ [.ret false, .ret false]

theorem onClose_once_by_call :
    ∃ s : System Bool, play (System.step true) (.opened false) closeByCall = some s ∧
      s.isOpen = false ∧ (∀ t, s.stack t = []) ∧ s.closes = 1 := by
  have hplay : (play (System.step true) (.opened false) closeByCall).map System.summary =
      some (1, false, [], []) := by
    decide +kernel
  obtain ⟨s, hs, hsummary⟩ := Option.map_eq_some_iff.mp hplay
  simp only [System.summary, Prod.mk.injEq] at hsummary
  obtain ⟨-, hopen, hfalse, htrue⟩ := hsummary
  have hidle : ∀ t, s.stack t = [] := by
    intro t
    cases t with
    | false => exact hfalse
    | true => exact htrue
  refine ⟨s, hs, hopen, hidle, (System.onClose_once false true (by decide) s ?_).2 hopen hidle⟩
  exact runs_of_play (D := fun s a => decide (s.Orderly a)) _ (fun s a h => of_decide_eq_true h)
    _ hs (by decide +kernel)

/-- The stream ends. -/
def endOfStream : List (Act Bool) :=
  openAndWait ++ runs true 2 .lost ++ .ret true :: runs true 2 .lost ++ [.ret true]

/-- **A stream that ends is not reported**: the connection is not open, nothing is under way, and
`on_close` was never called. -/
theorem onClose_missed :
    ¬∀ (acts : List (Act Bool)) (s : System Bool),
      play (System.step true) (.opened false) acts = some s → s.isOpen = false →
        (∀ t, s.stack t = []) → s.closes = 1 := by
  intro h
  have hplay : (play (System.step true) (.opened false) endOfStream).map System.summary =
      some (0, false, [], []) := by
    decide +kernel
  obtain ⟨s, hs, hsummary⟩ := Option.map_eq_some_iff.mp hplay
  simp only [System.summary, Prod.mk.injEq] at hsummary
  obtain ⟨hcloses, hopen, hfalse, htrue⟩ := hsummary
  have hone := h endOfStream s hs hopen (by
    intro t
    cases t with
    | false => exact hfalse
    | true => exact htrue)
  rw [hcloses] at hone
  simp at hone

/-- A frame fails a check, and the handler of `on_error` closes the connection. -/
def closeInOnError : List (Act Bool) :=
  openAndWait ++ runs true 2 .violation ++ .call true .close :: runs true 10 .silent ++
    [.ret true, .ret true, .ret true] ++ runs true 4 .silent ++ .ret true :: runs true 2 .silent ++
    [.ret true]

/-- `on_close` is called twice. -/
example : (play (System.step true) (.opened false) closeInOnError).map System.summary =
    some (2, false, [], []) := by
  decide +kernel

end Wscpp.Cpp.Lifecycle
