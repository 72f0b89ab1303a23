import Wscpp.Cpp.Lifecycle

/-!
# In which order the callbacks come

`on_message` and `on_error` are called by the reader thread, `on_close` by whichever thread closes
the connection.  What an application that sends and closes may rely on is nevertheless an order: no
message and no error before `on_open` has returned, none while another is being handled, and none
after `on_close` (`callbacks_in_order`).  It holds in all runs of one session, those included in
which handlers call `close` and in which several threads do.  What it rests on is
`join_reader_if_needed`: a thread other than the reader calls `on_close` only when the reader has
ended.

The calls that begin a session or its reader are not among those of the runs: a handler of `on_open`
that calls `start_reading` has its messages before it returns, and a connection that is activated
again goes on behind its `on_close`.

The functions have few places.  `readerPlaces`, `callPlaces` and `opening.tails` list them, so that
what is said about each of them is decided by looking at all.
-/

namespace Wscpp.Cpp.Lifecycle

open Moves

/-! ## The places of the functions -/

/-- What can be given to the reader. -/
def Arrival.all : List Arrival := [.message, .silent, .ping, .close, .violation, .lost]

lemma Arrival.mem_all (a : Arrival) : a ∈ Arrival.all := by
  cases a <;> decide

/-- The places of `read_loop` and of what it calls. -/
def readerPlaces : List (List Instr) :=
  (turn :: [.invoke .onError, .unlock, .require .isOpen .quit] ::
    Arrival.all.map Arrival.handling ++
    [Exit.back, .releaseBack, .quit, .shutdown].map Exit.rest).flatMap List.tails

/-- The places of the calls. -/
def callPlaces : List (List Instr) :=
  [Call.send.program, Call.unsent.program, Call.close.program, Exit.release.rest].flatMap List.tails

/-- The places of the functions that a thread is in first. -/
def bottoms {ι : Type} [DecidableEq ι] (opener reader t : ι) : List (List Instr) :=
  if t = reader then readerPlaces
  else if t = opener then opening.tails ++ callPlaces
  else callPlaces

/-- All places. -/
def places : List (List Instr) := readerPlaces ++ opening.tails ++ callPlaces

/-- Where a function can go on after an instruction. -/
def onward (isOpen : Bool) (rest : List Instr) : Instr → List (List Instr)
  | .require .isOpen x => [if isOpen then rest else x.rest]
  | .require .notClosing x => [rest, x.rest]
  | .receive => Arrival.all.map Arrival.handling
  | .reply => [rest, .invoke .onError :: rest]
  | _ => [rest]

/-- A relation between a place, an instruction and the place after it. -/
def checks (R : Bool → Instr → List Instr → List Instr → Bool) (places : List (List Instr)) :
    Bool :=
  places.all fun
    | [] => true
    | i :: rest => [true, false].all fun isOpen => (onward isOpen rest i).all (R isOpen i rest)

lemma Call.program_mem (c : Call) : c.program ∈ callPlaces := by
  cases c <;> decide

section Bottoms

variable {ι : Type} [DecidableEq ι] {opener reader t : ι} {c : List Instr}

lemma mem_places_of_call (h : c ∈ callPlaces) : c ∈ places :=
  List.mem_append_right _ h

lemma mem_places_of_bottom (h : c ∈ bottoms opener reader t) : c ∈ places := by
  unfold bottoms at h
  split_ifs at h
  · exact List.mem_append_left _ (List.mem_append_left _ h)
  · rcases List.mem_append.mp h with h | h
    · exact List.mem_append_left _ (List.mem_append_right _ h)
    · exact mem_places_of_call h
  · exact mem_places_of_call h

end Bottoms

namespace System

variable {ι : Type} {s : System ι} {arrival : Arrival} {ok : Bool} {i : Instr} {rest : List Instr}

lemma next_mem_onward : s.next arrival ok rest i ∈ onward s.isOpen rest i := by
  cases i with
  | require flag x =>
      cases flag with
      | isOpen => exact List.mem_singleton_self _
      | notClosing =>
          simp only [next, onward]
          split
          · exact List.mem_cons_self
          · exact List.mem_cons_of_mem _ List.mem_cons_self
  | receive =>
      simp only [next, onward]
      split
      · exact List.mem_map_of_mem (Arrival.mem_all _)
      · exact List.mem_map_of_mem (Arrival.mem_all _)
  | reply =>
      simp only [next, onward]
      split
      · exact List.mem_cons_self
      · exact List.mem_cons_of_mem _ List.mem_cons_self
  | _ => exact List.mem_singleton_self _

lemma of_checks (s : System ι) (arrival : Arrival) (ok : Bool)
    {R : Bool → Instr → List Instr → List Instr → Bool} {places : List (List Instr)}
    (h : checks R places = true) (hplace : i :: rest ∈ places) :
    R s.isOpen i rest (s.next arrival ok rest i) = true := by
  have hall := List.all_eq_true.mp (List.all_eq_true.mp h _ hplace) s.isOpen
    (by cases s.isOpen <;> decide)
  exact List.all_eq_true.mp hall _ next_mem_onward

end System

/-! ## What is said of a place -/

/-- The function holds `write_mutex_`. -/
def held : List Instr → Bool
  | [] => false
  | .lock :: _ => false
  | .unlock :: _ => true
  | .receive :: _ => false
  | _ :: rest => held rest

/-- The function calls `on_close` and does not clear `is_open_` before. -/
def late : List Instr → Bool
  | [] => false
  | .clearOpen :: _ => false
  | .receive :: _ => false
  | .invoke .onClose :: _ => true
  | _ :: rest => late rest

/-- The function calls `on_close` and does not join the reader before. -/
def parted : List Instr → Bool
  | [] => false
  | .join :: _ => false
  | .receive :: _ => false
  | .invoke .onClose :: _ => true
  | _ :: rest => parted rest

/-- The function reads, or calls `on_message` or `on_error`, although the connection may not be
open. -/
def loud : List Instr → Bool
  | [] => false
  | .receive :: _ => true
  | .reply :: _ => true
  | .invoke .onMessage :: _ => true
  | .invoke .onError :: _ => true
  | .require .isOpen _ :: _ => false
  | _ :: rest => loud rest

/-- The function is `read_loop`, not yet at its end. -/
def looping (c : List Instr) : Bool :=
  match c.getLast? with
  | some .receive => true
  | some .quit => true
  | some (.require .isOpen .quit) => true
  | _ => false

/-- The function is going to start the reader. -/
def starting (c : List Instr) : Bool := c.contains .startReader

/-- What holds at every place and of each way on from it. -/
structure Checked : Prop where
  reader_closed : checks (fun _ _ _ d => decide (d ∈ readerPlaces)) readerPlaces = true
  call_closed : checks (fun _ _ _ d => decide (d ∈ callPlaces)) callPlaces = true
  opening_closed : checks (fun _ _ _ d => decide (d ∈ opening.tails)) opening.tails = true
  /-- `write_mutex_` is taken where it is not held and released where it is. -/
  held_along : checks (fun _ i rest d =>
    match i with
    | .lock => held d
    | .unlock => !held d
    | i => held d == held (i :: rest)) places = true
  late_along : checks (fun _ i rest d =>
    !late d || late (i :: rest) || i == .clearOpen) places = true
  parted_along : checks (fun _ i rest d =>
    !parted d || parted (i :: rest) || (i == .join && late (i :: rest))) callPlaces = true
  /-- A place is loud because the one before it is, or because the connection was open; a callback
  leads to none. -/
  loud_along : checks (fun isOpen i rest d =>
    !loud d || ((isOpen || loud (i :: rest)) && (System.entered i).isEmpty)) readerPlaces = true
  looping_along : checks (fun _ i rest d =>
    looping (i :: rest) && (!looping d || i != .quit)) readerPlaces = true
  starting_along : checks (fun _ i rest d =>
    !starting d || (starting (i :: rest) && i != .startReader)) places = true
  reader_facts : readerPlaces.all (fun c =>
    (!loud c || looping c) && !starting c) = true
  call_facts : callPlaces.all (fun c =>
    !loud c && !looping c && !starting c && !c.contains .quit) = true
  opening_facts : opening.tails.all (fun c =>
    !loud c && !looping c && !parted c && !c.contains .quit) = true

lemma checked : Checked := by
  constructor <;> decide +kernel

lemma Call.program_facts (c : Call) : late c.program = false ∧ parted c.program = false := by
  cases c <;> decide

/-! ## The stacks -/

/-- The functions on the stack of a thread: the one it is in first, and above each callback what the
handler has called. -/
inductive Layered (bottoms : List (List Instr)) : List Frame → Prop
  | idle : Layered bottoms []
  | bottom {c : List Instr} (hc : c ∈ bottoms) : Layered bottoms [.code c]
  | handler {c : List Instr} {below : List Frame} (hbelow : Layered bottoms (.code c :: below)) :
      Layered bottoms (.handler :: .code c :: below)
  | call {c : List Instr} {below : List Frame} (hc : c ∈ callPlaces)
      (hbelow : Layered bottoms (.handler :: below)) :
      Layered bottoms (.code c :: .handler :: below)

section Layered

variable {bottoms : List (List Instr)} {c d : List Instr} {below : List Frame}

lemma Layered.tail {f : Frame}
    (h : Layered bottoms (f :: below)) : Layered bottoms below := by
  cases h with
  | bottom hc => exact .idle
  | handler hbelow => exact hbelow
  | call hc hbelow => exact hbelow

/-- Every function on the stack is a call, or the one the thread is in first. -/
lemma Layered.mem {stack : List Frame} (h : Layered bottoms stack) :
    ∀ f ∈ stack, f.rest ∈ callPlaces ∨ f.rest ∈ bottoms := by
  induction h with
  | idle => simp
  | bottom hc => simpa [Frame.rest] using Or.inr hc
  | handler hbelow ih => exact List.forall_mem_cons.mpr ⟨.inl (by decide +kernel), ih⟩
  | call hc hbelow ih => exact List.forall_mem_cons.mpr ⟨.inl hc, ih⟩

/-- The function on top of the stack is a call, or the one the thread is in first. -/
lemma Layered.top
    (h : Layered bottoms (.code c :: below)) : c ∈ callPlaces ∨ (c ∈ bottoms ∧ below = []) := by
  cases h with
  | bottom hc => exact .inr ⟨hc, rfl⟩
  | call hc hbelow => exact .inl hc

/-- The function on top of the stack goes on. -/
lemma Layered.replace
    (h : Layered bottoms (.code c :: below)) (hcall : c ∈ callPlaces → d ∈ callPlaces)
    (hbottom : c ∈ bottoms → d ∈ bottoms) : Layered bottoms (.code d :: below) := by
  cases h with
  | bottom hc => exact .bottom (hbottom hc)
  | call hc hbelow => exact .call (hcall hc) hbelow

lemma Layered.enter
    (h : Layered bottoms (.code c :: below)) (i : Instr) :
    Layered bottoms (System.entered i ++ .code c :: below) := by
  cases i with
  | invoke callback => exact .handler h
  | _ => exact h

end Layered

namespace System

section Steps

variable {ι : Type} [DecidableEq ι] {opener reader : ι} {s s' : System ι} {t : ι} {a : Act ι}

/-- What a step can do. -/
inductive Stepped (reader : ι) (s : System ι) : Act ι → System ι → Prop
  | call {t : ι} {c : Call}
      (hstack : (s.stack t = [] ∧ t ≠ reader) ∨ ∃ below, s.stack t = .handler :: below) :
      Stepped reader s (.call t c) (s.put t (.code c.program :: s.stack t))
  | turn (hidle : s.stack reader = []) (hreading : s.reading = true) :
      Stepped reader s .turn (s.put reader [.code turn])
  | run {t : ι} {arrival : Arrival} {ok : Bool} {i : Instr} {rest : List Instr}
      {below : List Frame} (hstack : s.stack t = .code (i :: rest) :: below)
      (hfree : s.blocked reader t i = false) :
      Stepped reader s (.run t arrival ok) (s.ran t arrival ok i rest below)
  | ret {t : ι} {f : Frame} {below : List Frame} (hstack : s.stack t = f :: below)
      (hf : f = .code [] ∨ f = .handler) :
      Stepped reader s (.ret t) (s.put t below)

lemma stepped_of_step (h : s.step reader a = some s') : Stepped reader s a s' := by
  cases a with
  | call t call =>
      simp only [step] at h
      split at h
      · -- an idle thread calls, if it is not the reader
        rename_i hstack
        split_ifs at h with hne
        obtain rfl := Option.some.inj h
        have hcall := Stepped.call (c := call) (.inl ⟨hstack, hne⟩)
        rwa [hstack] at hcall
      · rename_i below hstack
        obtain rfl := Option.some.inj h
        have hcall : Stepped reader s (.call t call) _ := .call (.inr ⟨below, hstack⟩)
        rwa [hstack] at hcall
      · simp at h
  | turn =>
      simp only [step] at h
      split at h
      · rename_i hstack
        split_ifs at h with hreading
        obtain rfl := Option.some.inj h
        exact .turn hstack hreading
      · simp at h
  | run t arrival ok =>
      simp only [step] at h
      split at h
      · rename_i i rest below hstack
        split_ifs at h with hblocked
        obtain rfl := Option.some.inj h
        exact .run hstack (Bool.eq_false_iff.mpr hblocked)
      · simp at h
  | ret t =>
      simp only [step] at h
      split at h
      · rename_i below hstack
        obtain rfl := Option.some.inj h
        exact .ret hstack (.inl rfl)
      · rename_i below hstack
        obtain rfl := Option.some.inj h
        exact .ret hstack (.inr rfl)
      · simp at h

omit [DecidableEq ι] in
lemma mem_of_cons {f g : Frame} {below : List Frame} (hstack : s.stack t = g :: below)
    (hf : f ∈ below) : f ∈ s.stack t := by
  rw [hstack]
  exact List.mem_cons_of_mem _ hf

/-- The functions of all threads after one of them has moved. -/
lemma forall_put {P : ι → Frame → Prop} {stack : List Frame}
    (hstack : s'.stack = Function.update s.stack t stack) (hself : ∀ f ∈ stack, P t f)
    (hothers : ∀ u, u ≠ t → ∀ f ∈ s.stack u, P u f) (u : ι) : ∀ f ∈ s'.stack u, P u f := by
  intro f hf
  rw [hstack] at hf
  rcases eq_or_ne u t with rfl | hne
  · rw [Function.update_self] at hf
    exact hself f hf
  · rw [Function.update_of_ne hne] at hf
    exact hothers u hne f hf

/-- The functions of all threads after an instruction. -/
lemma forall_ran {P : ι → Frame → Prop} {arrival : Arrival} {ok : Bool} {i : Instr}
    {rest : List Instr} {below : List Frame} (hnext : P t (.code (s.next arrival ok rest i)))
    (hhandler : P t .handler) (hbelow : ∀ f ∈ below, P t f)
    (hothers : ∀ u, u ≠ t → ∀ f ∈ s.stack u, P u f) (u : ι) :
    ∀ f ∈ (s.ran t arrival ok i rest below).stack u, P u f := by
  refine forall_put (ran_stack arrival ok) (fun f hf => ?_) hothers u
  rcases List.mem_append.mp hf with hin | hin
  · cases i <;> simp only [entered, List.mem_singleton, List.not_mem_nil] at hin
    subst hin
    exact hhandler
  · rcases List.mem_cons.mp hin with rfl | hin
    · exact hnext
    · exact hbelow f hin

omit [DecidableEq ι] in
lemma call_closed (s : System ι) (arrival : Arrival) (ok : Bool) {i : Instr} {rest : List Instr}
    (h : i :: rest ∈ callPlaces) : s.next arrival ok rest i ∈ callPlaces :=
  of_decide_eq_true (of_checks s arrival ok checked.call_closed h)

lemma bottoms_closed (s : System ι) (arrival : Arrival) (ok : Bool) {i : Instr} {rest : List Instr}
    (h : i :: rest ∈ bottoms opener reader t) :
    s.next arrival ok rest i ∈ bottoms opener reader t := by
  unfold bottoms at h ⊢
  split_ifs at h ⊢
  · exact of_decide_eq_true (of_checks s arrival ok checked.reader_closed h)
  · rcases List.mem_append.mp h with h | h
    · exact List.mem_append_left _
        (of_decide_eq_true (of_checks s arrival ok checked.opening_closed h))
    · exact List.mem_append_right _ (call_closed s arrival ok h)
  · exact call_closed s arrival ok h

/-! ## The invariant -/

/-- What holds in every run. -/
structure Kept (opener reader : ι) (s : System ι) : Prop where
  layered : ∀ t, Layered (bottoms opener reader t) (s.stack t)
  closed : s.closes ≠ 0 → s.isOpen = false
  /-- `is_open_` is cleared before `on_close` is called. -/
  cleared : ∀ t, ∀ f ∈ s.stack t, late f.rest = true → s.isOpen = false
  /-- A thread other than the reader has joined it before it calls `on_close`. -/
  joined : ∀ t, ∀ f ∈ s.stack t, t ≠ reader → parted f.rest = true →
    s.isOpen = false ∧ s.reading = false
  /-- The reader has not begun before `open_and_start_reader` starts it. -/
  unstarted : ∀ t, ∀ f ∈ s.stack t, starting f.rest = true →
    s.reading = false ∧ s.stack reader = []
  running : ∀ t, ∀ f ∈ s.stack t, looping f.rest = true → s.reading = true
  /-- The reader reads and calls back with nothing below it, and only before `on_close`. -/
  alone : ∀ t, ∀ f ∈ s.stack t, loud f.rest = true →
    t = reader ∧ s.stack t = [f] ∧ s.closes = 0

variable {arrival : Arrival} {ok : Bool} {i : Instr} {rest : List Instr} {below : List Frame}

section Facts

variable {c : List Instr}

omit [DecidableEq ι] in
lemma call_facts (h : c ∈ callPlaces) : loud c = false ∧ looping c = false ∧ starting c = false ∧
    .quit ∉ c := by
  simpa [and_assoc] using List.all_eq_true.mp checked.call_facts c h

lemma reader_facts (h : c ∈ readerPlaces) :
    (loud c = true → looping c = true) ∧ starting c = false := by
  have hfacts := List.all_eq_true.mp checked.reader_facts c h
  simp only [Bool.and_eq_true, Bool.or_eq_true, Bool.not_eq_true'] at hfacts
  exact ⟨fun hloud => hfacts.1.resolve_left (by simp [hloud]), hfacts.2⟩

lemma opening_tails_facts (h : c ∈ opening.tails) : loud c = false ∧ looping c = false ∧
    parted c = false ∧ .quit ∉ c := by
  simpa [and_assoc] using List.all_eq_true.mp checked.opening_facts c h

lemma mem_of_bottom (h : c ∈ bottoms opener reader t) (ht : t ≠ reader) :
    c ∈ opening.tails ∨ c ∈ callPlaces := by
  unfold bottoms at h
  rw [if_neg ht] at h
  split_ifs at h
  · exact List.mem_append.mp h
  · exact .inr h

/-- The places of `read_loop` belong to the reader. -/
lemma bottoms_of_reader (h : c ∈ bottoms opener reader t)
    (hc : looping c = true ∨ loud c = true ∨ .quit ∈ c) : t = reader ∧ c ∈ readerPlaces := by
  by_cases ht : t = reader
  · unfold bottoms at h
    rw [if_pos ht] at h
    exact ⟨ht, h⟩
  · exfalso
    rcases mem_of_bottom h ht with h | h
    · obtain ⟨h1, h2, -, h4⟩ := opening_tails_facts h
      simp [h1, h2, h4] at hc
    · obtain ⟨h1, h2, -, h4⟩ := call_facts h
      simp [h1, h2, h4] at hc

/-- `start_reader_thread` belongs to the thread that opened the connection. -/
lemma bottoms_of_starting (h : c ∈ bottoms opener reader t) (hc : starting c = true) :
    t = opener ∧ t ≠ reader := by
  unfold bottoms at h
  split_ifs at h with hreader hopener
  · simp [(reader_facts h).2] at hc
  · exact ⟨hopener, hreader⟩
  · simp [(call_facts h).2.2.1] at hc

end Facts

section Places

variable {f : Frame}

/-- Every function on a stack is at one of the places. -/
lemma Kept.place_of_mem (h : Kept opener reader s) (hf : f ∈ s.stack t) : f.rest ∈ places := by
  rcases (h.layered t).mem f hf with hcall | hbottom
  · exact mem_places_of_call hcall
  · exact mem_places_of_bottom hbottom

lemma Kept.reader_of_mem (h : Kept opener reader s) (hf : f ∈ s.stack t)
    (hc : looping f.rest = true ∨ loud f.rest = true ∨ .quit ∈ f.rest) :
    t = reader ∧ f.rest ∈ readerPlaces := by
  rcases (h.layered t).mem f hf with hcall | hbottom
  · obtain ⟨h1, h2, -, h4⟩ := call_facts hcall
    simp [h1, h2, h4] at hc
  · exact bottoms_of_reader hbottom hc

lemma Kept.opener_of_mem (h : Kept opener reader s) (hf : f ∈ s.stack t)
    (hc : starting f.rest = true) : t = opener ∧ t ≠ reader := by
  rcases (h.layered t).mem f hf with hcall | hbottom
  · simp [(call_facts hcall).2.2.1] at hc
  · exact bottoms_of_starting hbottom hc

lemma Kept.call_or_opening (h : Kept opener reader s) (hf : f ∈ s.stack t) (ht : t ≠ reader) :
    f.rest ∈ opening.tails ∨ f.rest ∈ callPlaces := by
  rcases (h.layered t).mem f hf with hcall | hbottom
  · exact .inr hcall
  · exact mem_of_bottom hbottom ht

lemma Kept.below_eq_nil (h : Kept opener reader s) (hstack : s.stack t = .code (i :: rest) :: below)
    (hcall : i :: rest ∉ callPlaces) : below = [] := by
  have hlayered := h.layered t
  rw [hstack] at hlayered
  exact (hlayered.top.resolve_left hcall).2

end Places

/-! ### One instruction -/

section Run

lemma ran_isOpen (hclosed : s.isOpen = false) :
    (s.ran t arrival ok i rest below).isOpen = false := by
  by_cases hclear : i = .clearOpen
  · subst hclear
    rfl
  · exact (effect_isOpen s t hclear).trans hclosed

lemma ran_isClosing (hset : s.isClosing = true) :
    (s.ran t arrival ok i rest below).isClosing = true := by
  cases i with
  | invoke callback => cases callback <;> exact hset
  | setClosing => rfl
  | _ => exact hset

lemma ran_socketOpen (hi : i ≠ .closeSocket) :
    (s.ran t arrival ok i rest below).socketOpen = s.socketOpen := by
  cases i with
  | closeSocket => exact absurd rfl hi
  | invoke callback => cases callback <;> rfl
  | _ => rfl

lemma ran_socketOpen_false (h : s.socketOpen = false) :
    (s.ran t arrival ok i rest below).socketOpen = false := by
  by_cases hi : i = .closeSocket
  · subst hi
    rfl
  · rw [ran_socketOpen hi, h]

lemma ran_reading (hstart : i ≠ .startReader) (hquit : i ≠ .quit) :
    (s.ran t arrival ok i rest below).reading = s.reading := by
  cases i with
  | startReader => exact absurd rfl hstart
  | quit => exact absurd rfl hquit
  | invoke callback => cases callback <;> rfl
  | _ => rfl

lemma ran_reading_false (hstart : i = .startReader → s.isOpen = false) (h : s.reading = false) :
    (s.ran t arrival ok i rest below).reading = false := by
  by_cases hi : i = .startReader
  · subst hi
    exact hstart rfl
  by_cases hquit : i = .quit
  · subst hquit
    rfl
  · rw [ran_reading hi hquit, h]

variable (h : Kept opener reader s) (hstack : s.stack t = .code (i :: rest) :: below)

include hstack in
omit [DecidableEq ι] in
lemma top_mem : .code (i :: rest) ∈ s.stack t := by
  rw [hstack]
  exact List.mem_cons_self

include h hstack

lemma Kept.layered_ran (u : ι) : Layered (bottoms opener reader u)
    ((s.ran t arrival ok i rest below).stack u) := by
  rw [ran_stack]
  rcases eq_or_ne u t with rfl | hne
  · rw [Function.update_self]
    have hlayered := h.layered u
    rw [hstack] at hlayered
    exact (hlayered.replace (call_closed s arrival ok) (bottoms_closed s arrival ok)).enter i
  · rw [Function.update_of_ne hne]
    exact h.layered u

lemma Kept.mem_places : i :: rest ∈ places := h.place_of_mem (top_mem hstack)

lemma Kept.closed_ran (hcloses : (s.ran t arrival ok i rest below).closes ≠ 0) :
    (s.ran t arrival ok i rest below).isOpen = false := by
  apply ran_isOpen
  by_cases hi : i = .invoke .onClose
  · subst hi
    exact h.cleared t _ (top_mem hstack) rfl
  · exact h.closed (by rwa [← effect_closes s t hi])

lemma Kept.cleared_ran : ∀ u, ∀ f ∈ (s.ran t arrival ok i rest below).stack u,
    late f.rest = true → (s.ran t arrival ok i rest below).isOpen = false := by
  refine forall_ran (fun hlate => ?_) (fun hlate => by simp [Frame.rest, late] at hlate)
    (fun f hf hlate => ran_isOpen (h.cleared t f (mem_of_cons hstack hf) hlate))
    (fun u _ f hf hlate => ran_isOpen (h.cleared u f hf hlate))
  have hcheck := of_checks s arrival ok checked.late_along
    (h.mem_places hstack)
  simp only [Bool.or_eq_true, Bool.not_eq_true', beq_iff_eq] at hcheck
  rcases hcheck with (hcheck | hcheck) | rfl
  · simp [Frame.rest, hcheck] at hlate
  · exact ran_isOpen (h.cleared t _ (top_mem hstack) hcheck)
  · rfl

/-- What a thread other than the reader knows when it calls `on_close`. -/
lemma Kept.joined_next (hfree : s.blocked reader t i = false) (ht : t ≠ reader)
    (hparted : parted (s.next arrival ok rest i) = true) :
    s.isOpen = false ∧ s.reading = false := by
  have hcall : i :: rest ∈ callPlaces := by
    refine (h.call_or_opening (top_mem hstack) ht).resolve_left fun hopening => ?_
    have hnext : s.next arrival ok rest i ∈ opening.tails :=
      of_decide_eq_true (of_checks s arrival ok checked.opening_closed hopening)
    simp [(opening_tails_facts hnext).2.2.1] at hparted
  have hcheck := of_checks s arrival ok checked.parted_along hcall
  simp only [hparted, Bool.not_true, Bool.false_or, Bool.or_eq_true, Bool.and_eq_true,
    beq_iff_eq] at hcheck
  rcases hcheck with hcheck | ⟨rfl, hlate⟩
  · exact h.joined t _ (top_mem hstack) ht hcheck
  · refine ⟨h.cleared t _ (top_mem hstack) hlate, ?_⟩
    simpa [blocked, ht] using hfree

lemma Kept.joined_ran (hfree : s.blocked reader t i = false) :
    ∀ u, ∀ f ∈ (s.ran t arrival ok i rest below).stack u, u ≠ reader → parted f.rest = true →
      (s.ran t arrival ok i rest below).isOpen = false ∧
        (s.ran t arrival ok i rest below).reading = false := by
  have hkeep : s.isOpen = false ∧ s.reading = false →
      (s.ran t arrival ok i rest below).isOpen = false ∧
        (s.ran t arrival ok i rest below).reading = false :=
    fun hold => ⟨ran_isOpen hold.1, ran_reading_false (fun _ => hold.1) hold.2⟩
  refine forall_ran (fun ht hparted => hkeep (h.joined_next hstack hfree ht hparted))
    (fun _ hparted => by simp [Frame.rest, parted] at hparted)
    (fun f hf ht hparted => hkeep (h.joined t f (mem_of_cons hstack hf) ht hparted))
    (fun u _ f hf hu hparted => hkeep (h.joined u f hf hu hparted))

lemma Kept.starting_top (hstart : i = .startReader) :
    t = opener ∧ t ≠ reader ∧ below = [] ∧ s.stack reader = [] := by
  have hstarting : starting (i :: rest) = true := by simp [starting, hstart]
  obtain ⟨h1, h2⟩ := h.opener_of_mem (top_mem hstack) hstarting
  refine ⟨h1, h2, h.below_eq_nil hstack fun hcall => ?_,
    (h.unstarted t _ (top_mem hstack) hstarting).2⟩
  simp [(call_facts hcall).2.2.1] at hstarting

lemma Kept.unstarted_ran : ∀ u, ∀ f ∈ (s.ran t arrival ok i rest below).stack u,
    starting f.rest = true → (s.ran t arrival ok i rest below).reading = false ∧
      (s.ran t arrival ok i rest below).stack reader = [] := by
  have hkeep : i ≠ .startReader → s.reading = false ∧ s.stack reader = [] →
      (s.ran t arrival ok i rest below).reading = false ∧
        (s.ran t arrival ok i rest below).stack reader = [] := by
    intro hi hold
    refine ⟨ran_reading_false (fun hcontra => absurd hcontra hi) hold.1, ?_⟩
    have hne : reader ≠ t := by
      rintro rfl
      rw [hold.2] at hstack
      simp at hstack
    rw [ran_stack, Function.update_of_ne hne, hold.2]
  refine forall_ran (fun hstarting => ?_)
    (fun hstarting => by simp [Frame.rest, starting] at hstarting)
    (fun f hf hstarting => ?_) (fun u hu f hf hstarting => ?_)
  · have hcheck := of_checks s arrival ok checked.starting_along
      (h.mem_places hstack)
    have hnext : starting (s.next arrival ok rest i) = true := hstarting
    simp only [hnext, Bool.not_true, Bool.false_or, Bool.and_eq_true, bne_iff_ne] at hcheck
    exact hkeep hcheck.2 (h.unstarted t _ (top_mem hstack) hcheck.1)
  · refine hkeep (fun hi => ?_) (h.unstarted t f (mem_of_cons hstack hf) hstarting)
    rw [(h.starting_top hstack hi).2.2.1] at hf
    simp at hf
  · refine hkeep (fun hi => hu ?_) (h.unstarted u f hf hstarting)
    rw [(h.opener_of_mem hf hstarting).1, (h.starting_top hstack hi).1]

/-- A thread that comes to a place of `read_loop` is the reader, and in no handler. -/
lemma Kept.reader_of_next (hnext : looping (s.next arrival ok rest i) = true ∨
    loud (s.next arrival ok rest i) = true ∨ .quit ∈ s.next arrival ok rest i) :
    t = reader ∧ i :: rest ∈ readerPlaces ∧ below = [] := by
  have hcall : i :: rest ∉ callPlaces := by
    intro hcall
    obtain ⟨h1, h2, -, h4⟩ := call_facts (call_closed s arrival ok hcall)
    simp [h1, h2, h4] at hnext
  have hbottom : i :: rest ∈ bottoms opener reader t :=
    ((h.layered t).mem _ (top_mem hstack)).resolve_left hcall
  obtain ⟨rfl, -⟩ := bottoms_of_reader
    (bottoms_closed s arrival ok hbottom) hnext
  unfold bottoms at hbottom
  rw [if_pos rfl] at hbottom
  exact ⟨rfl, hbottom, h.below_eq_nil hstack hcall⟩

lemma Kept.running_ran : ∀ u, ∀ f ∈ (s.ran t arrival ok i rest below).stack u,
    looping f.rest = true → (s.ran t arrival ok i rest below).reading = true := by
  -- a function that starts the reader or ends it is the last one for which there was no reader, or
  -- the reader's own
  have hkeep : ∀ u, ∀ f ∈ s.stack u, looping f.rest = true → (u = t → f ∈ below) →
      (s.ran t arrival ok i rest below).reading = true := by
    intro u f hf hlooping hbelow
    obtain ⟨rfl, -⟩ := h.reader_of_mem hf (.inl hlooping)
    rw [ran_reading, h.running u f hf hlooping]
    · intro hi
      rw [(h.starting_top hstack hi).2.2.2] at hf
      simp at hf
    · rintro rfl
      obtain ⟨rfl, -⟩ := h.reader_of_mem (top_mem hstack) (.inr (.inr List.mem_cons_self))
      have hnil := h.below_eq_nil hstack fun hcall =>
        (call_facts hcall).2.2.2 List.mem_cons_self
      have := hbelow rfl
      rw [hnil] at this
      simp at this
  refine forall_ran (fun hlooping => ?_) (fun hlooping => by simp [Frame.rest, looping] at hlooping)
    (fun f hf hlooping => hkeep t f (mem_of_cons hstack hf) hlooping fun _ => hf)
    (fun u hu f hf hlooping => hkeep u f hf hlooping fun hut => absurd hut hu)
  have hnext : looping (s.next arrival ok rest i) = true := hlooping
  obtain ⟨-, hplace, -⟩ := h.reader_of_next hstack (.inl hnext)
  have hcheck := of_checks s arrival ok checked.looping_along hplace
  simp only [hnext, Bool.not_true, Bool.false_or, Bool.and_eq_true, bne_iff_ne] at hcheck
  rw [ran_reading (fun hi => ?_) hcheck.2, h.running t _ (top_mem hstack) hcheck.1]
  subst hi
  simpa [starting] using (reader_facts hplace).2

lemma Kept.alone_ran : ∀ u, ∀ f ∈ (s.ran t arrival ok i rest below).stack u, loud f.rest = true →
    u = reader ∧ (s.ran t arrival ok i rest below).stack u = [f] ∧
      (s.ran t arrival ok i rest below).closes = 0 := by
  refine forall_ran (fun hloud => ?_) (fun hloud => by simp [Frame.rest, loud] at hloud)
    (fun f hf hloud => ?_) (fun u hu f hf hloud => ?_)
  · have hnext : loud (s.next arrival ok rest i) = true := hloud
    obtain ⟨rfl, hplace, rfl⟩ := h.reader_of_next hstack (.inr (.inl hnext))
    have hcheck := of_checks s arrival ok checked.loud_along hplace
    simp only [hnext, Bool.not_true, Bool.false_or, Bool.and_eq_true, Bool.or_eq_true,
      List.isEmpty_iff] at hcheck
    have hcloses : s.closes = 0 := by
      rcases hcheck.1 with hopen | hbefore
      · by_contra hne
        rw [h.closed hne] at hopen
        simp at hopen
      · exact (h.alone t _ (top_mem hstack) hbefore).2.2
    refine ⟨rfl, ?_, ?_⟩
    · rw [ran_stack, Function.update_self, hcheck.2]
      rfl
    · rw [← hcloses]
      refine effect_closes s t ?_
      rintro rfl
      simp [entered] at hcheck
  · have halone := (h.alone t f (mem_of_cons hstack hf) hloud).2.1
    rw [hstack, List.cons.injEq] at halone
    rw [halone.2] at hf
    simp at hf
  · obtain ⟨rfl, halone, hcloses⟩ := h.alone u f hf hloud
    refine ⟨rfl, by rw [ran_stack, Function.update_of_ne hu, halone], ?_⟩
    rw [← hcloses]
    refine effect_closes s t ?_
    rintro rfl
    -- the thread has joined the reader, which is running
    have hnot := (h.joined t _ (top_mem hstack) (Ne.symm hu) rfl).2
    have hplace := (h.reader_of_mem hf (.inr (.inl hloud))).2
    rw [h.running u f hf ((reader_facts hplace).1 hloud)] at hnot
    simp at hnot

/-- **One instruction.** -/
lemma Kept.ran (hfree : s.blocked reader t i = false) :
    Kept opener reader (s.ran t arrival ok i rest below) :=
  ⟨h.layered_ran hstack, h.closed_ran hstack, h.cleared_ran hstack, h.joined_ran hstack hfree,
    h.unstarted_ran hstack, h.running_ran hstack, h.alone_ran hstack⟩

end Run

/-- A stack that has one entry more or less on top, which says nothing about the connection. -/
lemma Kept.put {stack : List Frame} (h : Kept opener reader s)
    (hlayered : Layered (bottoms opener reader t) stack)
    (hreader : t = reader → s.stack t = [] → s.reading = true)
    (hstack : ∀ f ∈ stack, f ∈ s.stack t ∨ (late f.rest = false ∧ parted f.rest = false ∧
      starting f.rest = false ∧ loud f.rest = false ∧ (looping f.rest = true → s.reading = true)))
    (halone : ∀ f ∈ s.stack t, loud f.rest = true → f ∉ stack) :
    Kept opener reader (s.put t stack) where
  layered u := by
    show Layered _ (Function.update s.stack t stack u)
    rcases eq_or_ne u t with rfl | hne
    · rwa [Function.update_self]
    · rw [Function.update_of_ne hne]
      exact h.layered u
  closed := h.closed
  cleared := by
    refine forall_put rfl (fun f hf hlate => ?_) (fun u _ => h.cleared u)
    rcases hstack f hf with hold | ⟨hnew, -⟩
    · exact h.cleared t f hold hlate
    · simp [hnew] at hlate
  joined := by
    refine forall_put rfl (fun f hf ht hparted => ?_) (fun u _ => h.joined u)
    rcases hstack f hf with hold | ⟨-, hnew, -⟩
    · exact h.joined t f hold ht hparted
    · simp [hnew] at hparted
  unstarted := by
    -- the reader is not started by a stack that changes elsewhere
    have hkeep : s.reading = false ∧ s.stack reader = [] →
        s.reading = false ∧ Function.update s.stack t stack reader = [] := by
      rintro ⟨hreading, hidle⟩
      refine ⟨hreading, ?_⟩
      rcases eq_or_ne reader t with rfl | hne
      · rw [hreader rfl hidle] at hreading
        simp at hreading
      · rw [Function.update_of_ne hne, hidle]
    refine forall_put rfl (fun f hf hstarting => ?_)
      (fun u _ f hf hstarting => hkeep (h.unstarted u f hf hstarting))
    rcases hstack f hf with hold | ⟨-, -, hnew, -⟩
    · exact hkeep (h.unstarted t f hold hstarting)
    · simp [hnew] at hstarting
  running := by
    refine forall_put rfl (fun f hf hlooping => ?_) (fun u _ => h.running u)
    rcases hstack f hf with hold | ⟨-, -, -, -, hnew⟩
    · exact h.running t f hold hlooping
    · exact hnew hlooping
  alone := by
    refine forall_put rfl (fun f hf hloud => ?_) (fun u hu f hf hloud => ?_)
    · rcases hstack f hf with hold | ⟨-, -, -, hnew, -⟩
      · exact absurd hf (halone f hold hloud)
      · simp [hnew] at hloud
    · obtain ⟨rfl, hsingle, hcloses⟩ := h.alone u f hf hloud
      refine ⟨rfl, ?_, hcloses⟩
      show Function.update s.stack t stack u = [f]
      rw [Function.update_of_ne hu, hsingle]

/-- **One step.** -/
lemma Kept.step (h : Kept opener reader s) (hstep : s.step reader a = some s') :
    Kept opener reader s' := by
  cases stepped_of_step hstep with
  | @call t c hstack =>
      have hfacts := call_facts c.program_mem
      refine h.put ?_ ?_ ?_ ?_
      · -- the call is at the bottom of its stack, or made by a handler
        rcases hstack with ⟨hidle, ht⟩ | ⟨below, hhandler⟩
        · rw [hidle]
          refine .bottom ?_
          unfold bottoms
          rw [if_neg ht]
          split_ifs
          · exact List.mem_append_right _ c.program_mem
          · exact c.program_mem
        · have hlayered := h.layered t
          rw [hhandler] at hlayered ⊢
          exact .call c.program_mem hlayered
      · rintro rfl hidle
        rcases hstack with ⟨-, ht⟩ | ⟨below, hhandler⟩
        · exact absurd rfl ht
        · simp [hidle] at hhandler
      · refine List.forall_mem_cons.mpr ⟨.inr ⟨c.program_facts.1, c.program_facts.2,
          hfacts.2.2.1, hfacts.1, fun hlooping => ?_⟩, fun f hf => .inl hf⟩
        rw [Frame.rest, hfacts.2.1] at hlooping
        simp at hlooping
      · intro f hf hloud
        have halone := (h.alone t f hf hloud).2.1
        rcases hstack with ⟨hidle, -⟩ | ⟨below, hhandler⟩
        · simp [hidle] at hf
        · rw [hhandler, List.cons.injEq] at halone
          rw [← halone.1] at hloud
          simp [Frame.rest, loud] at hloud
  | turn hidle hreading =>
      refine h.put ?_ (fun _ _ => hreading) ?_ ?_
      · refine .bottom ?_
        unfold bottoms
        rw [if_pos rfl]
        decide +kernel
      · intro f hf
        rw [List.mem_singleton] at hf
        subst hf
        exact .inr ⟨rfl, rfl, rfl, rfl, fun _ => hreading⟩
      · intro f hf
        simp [hidle] at hf
  | run hstack hfree => exact h.ran hstack hfree
  | @ret t f below hstack hf =>
      have hlayered := h.layered t
      rw [hstack] at hlayered
      refine h.put hlayered.tail ?_ (fun g hg => .inl (mem_of_cons hstack hg)) ?_
      · intro _ hidle
        simp [hidle] at hstack
      · intro g hg hloud hmem
        have halone := (h.alone t g hg hloud).2.1
        rw [hstack, List.cons.injEq] at halone
        rw [halone.2] at hmem
        simp at hmem

lemma mem_opened {u : ι} {f : Frame} (hf : f ∈ (opened opener).stack u) :
    u = opener ∧ f = .code opening := by
  rw [show (opened opener).stack = Function.update (fun _ => []) opener [.code opening] from rfl]
    at hf
  rcases eq_or_ne u opener with rfl | hu
  · rw [Function.update_self, List.mem_singleton] at hf
    exact ⟨rfl, hf⟩
  · rw [Function.update_of_ne hu] at hf
    simp at hf

/-- The connection has just become open. -/
lemma kept_opened (hne : opener ≠ reader) : Kept opener reader (opened opener) where
  layered t := by
    show Layered _ (Function.update (fun _ => []) opener [.code opening] t)
    rcases eq_or_ne t opener with rfl | ht
    · rw [Function.update_self]
      refine .bottom ?_
      unfold bottoms
      rw [if_neg hne, if_pos rfl]
      exact List.mem_append_left _ (by decide)
    · rw [Function.update_of_ne ht]
      exact .idle
  closed hcloses := absurd rfl hcloses
  cleared t f hf hlate := by
    obtain ⟨-, rfl⟩ := mem_opened hf
    simp [Frame.rest, opening, late] at hlate
  joined t f hf _ hparted := by
    obtain ⟨-, rfl⟩ := mem_opened hf
    simp [Frame.rest, opening, parted] at hparted
  unstarted _ _ _ _ := by
    refine ⟨rfl, ?_⟩
    show Function.update (fun _ => []) opener [Frame.code opening] reader = []
    rw [Function.update_of_ne (Ne.symm hne)]
  running t f hf hlooping := by
    obtain ⟨-, rfl⟩ := mem_opened hf
    simp [Frame.rest, opening, looping] at hlooping
  alone t f hf hloud := by
    obtain ⟨-, rfl⟩ := mem_opened hf
    simp [Frame.rest, opening, loud] at hloud

lemma kept_of_runs (hne : opener ≠ reader) {C : System ι → Act ι → Prop}
    (hrun : Runs (step reader) C (opened opener) s) : Kept opener reader s :=
  hrun.invariant (kept_opened hne) fun _ _ _ h _ hstep => h.step hstep

/-- **The callbacks come in order.**  Whatever the application's threads and handlers send, whenever
they close, and whatever arrives in the session, `on_message` and `on_error` are only called by the
reader, in no other handler, after `on_open` has returned and `on_close` not yet called; and when a
thread other than the reader calls `on_close`, the reader has ended or was never started. -/
theorem callbacks_in_order (opener reader : ι) (hne : opener ≠ reader) (s : System ι)
    (hrun : Runs (step reader) (fun _ _ => True) (opened opener) s) (t : ι) (callback : Callback)
    (rest : List Instr) (below : List Frame)
    (hcalls : s.stack t = .code (.invoke callback :: rest) :: below) :
    (callback = .onMessage ∨ callback = .onError →
      t = reader ∧ below = [] ∧ s.closes = 0 ∧ ∀ f ∈ s.stack opener, .startReader ∉ f.rest) ∧
    (callback = .onClose → t ≠ reader → s.reading = false) := by
  have hkept := kept_of_runs hne hrun
  constructor
  · intro hcallback
    have hloud : loud (.invoke callback :: rest) = true := by
      rcases hcallback with rfl | rfl <;> rfl
    obtain ⟨ht, halone, hcloses⟩ := hkept.alone t _ (top_mem hcalls) hloud
    have hplace := (hkept.reader_of_mem (top_mem hcalls) (.inr (.inl hloud))).2
    have hreading := hkept.running t _ (top_mem hcalls) ((reader_facts hplace).1 hloud)
    rw [hcalls, List.cons.injEq] at halone
    refine ⟨ht, halone.2, hcloses, fun f hf hstart => ?_⟩
    have hnot := (hkept.unstarted opener f hf (by simpa [starting] using hstart)).1
    rw [hreading] at hnot
    simp at hnot
  · rintro rfl ht
    exact (hkept.joined t _ (top_mem hcalls) ht rfl).2

end Steps

end System

/-- A message arrives: the reader is about to call `on_message`. -/
theorem callbacks_in_order_message :
    ∃ s : System Bool,
      play (System.step true) (.opened false) (openAndWait ++ runs true 1 .message) = some s ∧
      s.stack true = [.code [.invoke .onMessage, .require .isOpen .quit]] ∧ s.closes = 0 ∧
      ∀ f ∈ s.stack false, .startReader ∉ f.rest := by
  have hplay : (play (System.step true) (.opened false) (openAndWait ++ runs true 1 .message)).map
      (fun s => s.stack true) = some [Frame.code [.invoke .onMessage, .require .isOpen .quit]] := by
    decide +kernel
  obtain ⟨s, hs, hstack⟩ := Option.map_eq_some_iff.mp hplay
  have hrun : Runs (System.step true) (fun _ _ => True) (.opened false) s :=
    runs_of_play (D := fun _ _ => true) _ (fun _ _ _ => trivial) _ hs (by decide +kernel)
  have horder := System.callbacks_in_order false true (by decide) s hrun true .onMessage _ _ hstack
  obtain ⟨-, -, hcloses, hopened⟩ := horder.1 (.inl rfl)
  exact ⟨s, hs, hstack, hcloses, hopened⟩

end Wscpp.Cpp.Lifecycle
