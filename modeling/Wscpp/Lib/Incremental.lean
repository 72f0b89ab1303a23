import Mathlib.Data.List.Basic

/-!
# Incremental consumers

An incremental parser is fed a stream in pieces.  Each call runs a sub-parser in a loop:
the sub-parser looks at the bytes not yet eaten, may eat some of them, and either stops with
a result or asks for more.  The loop ends when the sub-parser stops, when it makes no
progress, or when the bytes run out (`pump`).

What makes such a parser independent of how its stream is cut is a local property of the
sub-parser, `Splits`: more bytes behind the ones it saw never change a result or a complete
step, and a step that ate everything it saw can be resumed.  From it come the two laws every
user needs, `outcome_append_none` and `outcome_append_some`: the outcome of a call on a longer
string is the outcome of the calls on its pieces.

`σ` is the parser state, `β` the alphabet, `ρ` the results.
-/

namespace Wscpp.Incremental

variable {σ β ρ : Type*}

/-! ## The loop -/

/-- The loop of an incremental parser, with a bound on the number of turns.  A turn that
reports a result, or that eats nothing, is the last one. -/
def pumpFuel (sub : σ → List β → σ × Option ρ × ℕ) : ℕ → σ → List β → σ × Option ρ × ℕ
  | 0, s, _ => (s, none, 0)
  | n + 1, s, data =>
      if data.isEmpty then (s, none, 0)
      else
        match sub s data with
        | (s', some r, k) => (s', some r, k)
        | (s', none, 0) => (s', none, 0)
        | (s', none, k + 1) =>
            let t := pumpFuel sub n s' (data.drop (k + 1))
            (t.1, t.2.1, k + 1 + t.2.2)

/-- The loop: new state, result if one was reached, number of bytes eaten.  Every turn but the
last eats a byte, so the length of the input bounds the number of turns (`pump_eq`). -/
def pump (sub : σ → List β → σ × Option ρ × ℕ) (s : σ) (data : List β) : σ × Option ρ × ℕ :=
  pumpFuel sub data.length s data

variable (sub : σ → List β → σ × Option ρ × ℕ)

lemma pumpFuel_congr {n m : ℕ} {s : σ} {data : List β} (hn : data.length ≤ n)
    (hm : data.length ≤ m) : pumpFuel sub n s data = pumpFuel sub m s data := by
  induction n generalizing m s data with
  | zero =>
      have hnil : data = [] := List.eq_nil_of_length_eq_zero (by omega)
      subst hnil
      cases m <;> rfl
  | succ n ih =>
      cases m with
      | zero =>
          have hnil : data = [] := List.eq_nil_of_length_eq_zero (by omega)
          subst hnil
          rfl
      | succ m =>
          rcases data with _ | ⟨b, bs⟩
          · rfl
          · simp only [pumpFuel]
            split
            · rfl
            · rcases sub s (b :: bs) with ⟨s', _ | r, _ | k⟩
              · rfl
              · have hdrop : ((b :: bs).drop (k + 1)).length ≤ bs.length := by simp
                simp only [List.length_cons] at hn hm
                simp only
                rw [ih (m := m) (by omega) (by omega)]
              · rfl
              · rfl

/-- One turn of the loop. -/
lemma pump_eq (s : σ) (data : List β) (h : data ≠ []) :
    pump sub s data =
      match sub s data with
      | (s', some r, k) => (s', some r, k)
      | (s', none, 0) => (s', none, 0)
      | (s', none, k + 1) =>
          ((pump sub s' (data.drop (k + 1))).1, (pump sub s' (data.drop (k + 1))).2.1,
            k + 1 + (pump sub s' (data.drop (k + 1))).2.2) := by
  rcases data with _ | ⟨b, bs⟩
  · exact absurd rfl h
  · rw [pump, List.length_cons, pumpFuel, List.isEmpty_cons, if_neg (by simp)]
    rcases sub s (b :: bs) with ⟨s', _ | r, _ | k⟩
    · rfl
    · have hdrop : ((b :: bs).drop (k + 1)).length ≤ bs.length := by simp
      simp only [pump]
      rw [pumpFuel_congr sub hdrop (Nat.le_refl _)]
    · rfl
    · rfl

@[simp] lemma pump_nil (s : σ) : pump sub s [] = (s, none, 0) := rfl

variable {sub}

lemma pump_of_some {s s' : σ} {data : List β} {r : ρ} {k : ℕ} (h : data ≠ [])
    (hsub : sub s data = (s', some r, k)) : pump sub s data = (s', some r, k) := by
  rw [pump_eq sub s data h, hsub]

lemma pump_of_stall {s s' : σ} {data : List β} (h : data ≠ [])
    (hsub : sub s data = (s', none, 0)) : pump sub s data = (s', none, 0) := by
  rw [pump_eq sub s data h, hsub]

lemma pump_of_eat {s s' : σ} {data : List β} {k : ℕ} (hk : 0 < k) (h : data ≠ [])
    (hsub : sub s data = (s', none, k)) :
    pump sub s data = ((pump sub s' (data.drop k)).1, (pump sub s' (data.drop k)).2.1,
      k + (pump sub s' (data.drop k)).2.2) := by
  obtain ⟨k, rfl⟩ : ∃ j, k = j + 1 := ⟨k - 1, by omega⟩
  rw [pump_eq sub s data h, hsub]

/-! ## Splitting the input -/

/-- The local property that makes the loop independent of how its input is cut. -/
structure Splits (sub : σ → List β → σ × Option ρ × ℕ) : Prop where
  /-- No turn eats more than it is given. -/
  eaten_le : ∀ s a, (sub s a).2.2 ≤ a.length
  /-- A turn that eats nothing and reports nothing leaves the state alone. -/
  stall : ∀ s a s', sub s a = (s', none, 0) → s' = s
  /-- A result does not depend on the bytes behind the ones seen. -/
  stop : ∀ s a b s' r k, a ≠ [] → sub s a = (s', some r, k) → sub s (a ++ b) = (s', some r, k)
  /-- A turn that eats either is unaffected by the bytes behind, or ate all it saw and is
  resumed on them. -/
  eat : ∀ s a b s' k, a ≠ [] → sub s a = (s', none, k + 1) →
    sub s (a ++ b) = (s', none, k + 1) ∨
      (k + 1 = a.length ∧
        sub s (a ++ b) = ((sub s' b).1, (sub s' b).2.1, k + 1 + (sub s' b).2.2))

section Laws

variable (hs : Splits sub)

include hs

lemma pump_eaten_le (s : σ) (data : List β) : (pump sub s data).2.2 ≤ data.length := by
  induction hlen : data.length using Nat.strongRecOn generalizing s data with
  | ind n ih =>
      subst hlen
      by_cases hnil : data = []
      · subst hnil
        exact Nat.le_refl _
      · have hle := hs.eaten_le s data
        have hpos : 0 < data.length := List.length_pos_iff.mpr hnil
        rw [pump_eq sub s data hnil]
        rcases hsub : sub s data with ⟨s', _ | r, _ | k⟩
        · exact Nat.zero_le _
        · rw [hsub] at hle
          simp only at hle ⊢
          have := ih (data.drop (k + 1)).length (by simp; omega) s' (data.drop (k + 1)) rfl
          rw [List.length_drop] at this
          omega
        · rw [hsub] at hle
          exact hle
        · rw [hsub] at hle
          exact hle

/-- A resumed turn runs the loop on as the loop on the later bytes alone would. -/
lemma pump_resume {s s' : σ} {a b : List β} (ha : a ≠ []) (hb : b ≠ [])
    (hsub : sub s (a ++ b) = ((sub s' b).1, (sub s' b).2.1, a.length + (sub s' b).2.2)) :
    pump sub s (a ++ b) =
      ((pump sub s' b).1, (pump sub s' b).2.1, a.length + (pump sub s' b).2.2) := by
  have hapos : 0 < a.length := List.length_pos_iff.mpr ha
  have hab : a ++ b ≠ [] := by simp [ha]
  rcases hsub' : sub s' b with ⟨t, _ | r, _ | m⟩ <;> rw [hsub'] at hsub
  · -- The later bytes alone make no progress: the loop takes one more turn and stalls.
    have ht : t = s' := hs.stall _ _ _ hsub'
    subst ht
    rw [pump_of_eat (by omega) hab hsub, pump_of_stall hb hsub']
    simp only [Nat.add_zero, List.drop_left]
    rw [pump_of_stall hb hsub']
    rfl
  · rw [pump_of_eat (by omega) hab hsub, pump_of_eat (by omega) hb hsub']
    simp only [List.drop_append, List.drop_of_length_le (show a.length ≤ a.length + (m + 1) by
      omega), List.nil_append, Nat.add_sub_cancel_left, Nat.add_assoc]
  · rw [pump_of_some hab hsub, pump_of_some hb hsub']
  · rw [pump_of_some hab hsub, pump_of_some hb hsub']

/-- **Cutting before a result**: a call that wanted more bytes is continued by the next. -/
lemma pump_append_none {s s' : σ} {a : List β} {k : ℕ} (b : List β)
    (h : pump sub s a = (s', none, k)) :
    pump sub s (a ++ b) = ((pump sub s' (a.drop k ++ b)).1, (pump sub s' (a.drop k ++ b)).2.1,
      k + (pump sub s' (a.drop k ++ b)).2.2) := by
  induction hlen : a.length using Nat.strongRecOn generalizing s s' a k with
  | ind n ih =>
      subst hlen
      by_cases ha : a = []
      · subst ha
        obtain ⟨rfl, -, rfl⟩ := Prod.mk.injEq .. ▸ h
        simp
      have hapos : 0 < a.length := List.length_pos_iff.mpr ha
      have hab : a ++ b ≠ [] := by simp [ha]
      have hle := hs.eaten_le s a
      rcases hsub : sub s a with ⟨t, _ | r, _ | j⟩
      · -- a stalled turn
        have ht : t = s := hs.stall _ _ _ hsub
        rw [pump_of_stall ha hsub] at h
        obtain ⟨rfl, -, rfl⟩ := Prod.mk.injEq .. ▸ h
        subst ht
        simp
      · rw [hsub] at hle
        simp only at hle
        rcases hrest : pump sub t (a.drop (j + 1)) with ⟨u, o, m⟩
        rw [pump_of_eat (by omega) ha hsub, hrest] at h
        simp only [Prod.mk.injEq] at h
        obtain ⟨rfl, rfl, rfl⟩ := h
        rcases hs.eat s a b t j ha hsub with hsame | ⟨hall, hresume⟩
        · -- the turn is unaffected by `b`
          have hdrop : (a ++ b).drop (j + 1) = a.drop (j + 1) ++ b :=
            List.drop_append_of_le_length hle
          rw [pump_of_eat (by omega) hab hsame, hdrop,
            ih (a.drop (j + 1)).length (by simp; omega) hrest rfl, List.drop_drop]
          simp only [Nat.add_assoc]
        · -- the turn ate all of `a`
          have hdrop : a.drop (j + 1) = [] := List.drop_of_length_le (by omega)
          rw [hdrop, pump_nil] at hrest
          simp only [Prod.mk.injEq, true_and] at hrest
          obtain ⟨rfl, rfl⟩ := hrest
          rw [Nat.add_zero, hdrop, List.nil_append]
          rcases eq_or_ne b [] with rfl | hb
          · rw [List.append_nil, pump_of_eat (by omega) ha hsub, hdrop]
          · rw [hall] at hresume ⊢
            exact pump_resume hs ha hb hresume
      · rw [pump_of_some ha hsub] at h
        simp at h
      · rw [pump_of_some ha hsub] at h
        simp at h

/-- **Cutting after a result**: later bytes do not change it. -/
lemma pump_append_some {s s' : σ} {a : List β} {r : ρ} {k : ℕ} (b : List β)
    (h : pump sub s a = (s', some r, k)) : pump sub s (a ++ b) = (s', some r, k) := by
  induction hlen : a.length using Nat.strongRecOn generalizing s s' a k with
  | ind n ih =>
      subst hlen
      by_cases ha : a = []
      · subst ha
        simp at h
      have hapos : 0 < a.length := List.length_pos_iff.mpr ha
      have hab : a ++ b ≠ [] := by simp [ha]
      have hle := hs.eaten_le s a
      rcases hsub : sub s a with ⟨t, _ | r', _ | j⟩
      · rw [pump_of_stall ha hsub] at h
        simp at h
      · rw [hsub] at hle
        simp only at hle
        rcases hrest : pump sub t (a.drop (j + 1)) with ⟨u, o, m⟩
        rw [pump_of_eat (by omega) ha hsub, hrest] at h
        simp only [Prod.mk.injEq] at h
        obtain ⟨rfl, rfl, rfl⟩ := h
        rcases hs.eat s a b t j ha hsub with hsame | ⟨hall, -⟩
        · have hdrop : (a ++ b).drop (j + 1) = a.drop (j + 1) ++ b :=
            List.drop_append_of_le_length hle
          rw [pump_of_eat (by omega) hab hsame, hdrop,
            ih (a.drop (j + 1)).length (by simp; omega) hrest rfl]
        · -- a turn that ate everything left the loop without a result
          rw [List.drop_of_length_le (by omega), pump_nil] at hrest
          simp at hrest
      · have hsub' := hs.stop s a b t r' 0 ha hsub
        rw [pump_of_some ha hsub] at h
        rw [pump_of_some hab hsub', h]
      · have hsub' := hs.stop s a b t r' (j + 1) ha hsub
        rw [pump_of_some ha hsub] at h
        rw [pump_of_some hab hsub', h]

end Laws

/-! ## Outcomes

What a caller keeps after a call is the state, the result and the bytes left over; how many
bytes were eaten on the way does not matter to it. -/

variable (sub) in
/-- State, result and left-over bytes of one call. -/
def outcome (s : σ) (data : List β) : σ × Option ρ × List β :=
  ((pump sub s data).1, (pump sub s data).2.1, data.drop (pump sub s data).2.2)

/-- **The invariant rule of the loop**: what every turn that eats preserves holds when the loop
asks for more, and what it gives at the turn that stops holds at the result. -/
lemma outcome_rule (hs : Splits sub) {P : σ → List β → Prop} {Q : σ → ρ → List β → Prop}
    (heat : ∀ s a s' k, P s a → sub s a = (s', none, k + 1) → P s' (a.drop (k + 1)))
    (hstop : ∀ s a s' r k, P s a → sub s a = (s', some r, k) → Q s' r (a.drop k))
    {s : σ} {data : List β} (h : P s data) :
    (∀ s' rest, outcome sub s data = (s', none, rest) → P s' rest) ∧
      ∀ s' r rest, outcome sub s data = (s', some r, rest) → Q s' r rest := by
  induction hlen : data.length using Nat.strongRecOn generalizing s data with
  | ind n ih =>
      subst hlen
      by_cases hnil : data = []
      · subst hnil
        simpa [outcome] using h
      have hpos : 0 < data.length := List.length_pos_iff.mpr hnil
      rcases hsub : sub s data with ⟨t, _ | r, _ | k⟩
      · obtain rfl : t = s := hs.stall _ _ _ hsub
        simpa [outcome, pump_of_stall hnil hsub] using h
      · have hrest := ih (data.drop (k + 1)).length (by simp; omega) (heat _ _ _ _ h hsub) rfl
        simpa only [outcome, pump_of_eat (Nat.succ_pos k) hnil hsub, List.drop_drop] using hrest
      · simpa [outcome, pump_of_some hnil hsub] using hstop _ _ _ _ _ h hsub
      · simpa [outcome, pump_of_some hnil hsub] using hstop _ _ _ _ _ h hsub

/-- **The invariant rule for the state alone**: it asks nothing of the sub-parser, and the turn that
ends the loop without a result has to keep the invariant as well. -/
lemma pump_rule {P : σ → Prop} {Q : σ → ρ → Prop}
    (hgo : ∀ s a s' k, P s → sub s a = (s', none, k) → P s')
    (hstop : ∀ s a s' r k, P s → sub s a = (s', some r, k) → Q s' r) {s : σ} (h : P s)
    (data : List β) :
    (∀ s' k, pump sub s data = (s', none, k) → P s') ∧
      ∀ s' r k, pump sub s data = (s', some r, k) → Q s' r := by
  induction hlen : data.length using Nat.strongRecOn generalizing s data with
  | ind n ih =>
      subst hlen
      by_cases hnil : data = []
      · subst hnil
        simpa using h
      have hpos : 0 < data.length := List.length_pos_iff.mpr hnil
      rcases hsub : sub s data with ⟨t, _ | r, _ | k⟩
      · simpa [pump_of_stall hnil hsub] using hgo _ _ _ _ h hsub
      · have hrest := ih (data.drop (k + 1)).length (by simp; omega) (hgo _ _ _ _ h hsub) _ rfl
        simpa [pump_of_eat (Nat.succ_pos k) hnil hsub, Prod.ext_iff] using hrest
      · simpa [pump_of_some hnil hsub] using hstop _ _ _ _ _ h hsub
      · simpa [pump_of_some hnil hsub] using hstop _ _ _ _ _ h hsub

lemma outcome_of_eat {s s' : σ} {a b : List β} (ha : a ≠ [])
    (h : sub s (a ++ b) = (s', none, a.length)) : outcome sub s (a ++ b) = outcome sub s' b := by
  have hpos : 0 < a.length := List.length_pos_iff.mpr ha
  simp only [outcome, pump_of_eat hpos (by simp [ha]) h, ← List.drop_drop, List.drop_left]

lemma outcome_of_some {s s' : σ} {data : List β} {r : ρ} {k : ℕ} (h : data ≠ [])
    (hsub : sub s data = (s', some r, k)) : outcome sub s data = (s', some r, data.drop k) := by
  simp [outcome, pump_of_some h hsub]

lemma outcome_of_stop {s : σ} {data : List β} {r : ρ} (h : data ≠ [])
    (hr : (sub s data).2.1 = some r) : ∃ s' rest, outcome sub s data = (s', some r, rest) := by
  rcases hsub : sub s data with ⟨s', o, k⟩
  rw [hsub] at hr
  obtain rfl : o = some r := hr
  exact ⟨s', _, outcome_of_some h hsub⟩

@[simp] lemma outcome_nil (s : σ) : outcome sub s [] = (s, none, []) := rfl

lemma eaten_le_of_pump (hs : Splits sub) {s s' : σ} {a : List β} {r : Option ρ} {k : ℕ}
    (h : pump sub s a = (s', r, k)) : k ≤ a.length := by
  have hle := pump_eaten_le hs s a
  rwa [h] at hle

/-- How many bytes a call has eaten, from what it leaves over. -/
lemma pump_of_outcome (hs : Splits sub) {s s' : σ} {a b : List β} {r : Option ρ}
    (h : outcome sub s (a ++ b) = (s', r, b)) : pump sub s (a ++ b) = (s', r, a.length) := by
  have hle := pump_eaten_le hs s (a ++ b)
  rw [outcome] at h
  rcases hpump : pump sub s (a ++ b) with ⟨t, r', k⟩
  simp only [hpump, Prod.mk.injEq] at h hle
  obtain ⟨rfl, rfl, hdrop⟩ := h
  have hlen := congrArg List.length hdrop
  simp only [List.length_drop, List.length_append] at hlen hle
  rw [show k = a.length from by omega]

lemma outcome_append_none (hs : Splits sub) {s s' : σ} {a : List β} {k : ℕ} (b : List β)
    (h : pump sub s a = (s', none, k)) :
    outcome sub s (a ++ b) = outcome sub s' (a.drop k ++ b) := by
  have hk : k ≤ a.length := eaten_le_of_pump hs h
  simp only [outcome, pump_append_none hs b h, Prod.mk.injEq, true_and]
  rw [← List.drop_drop, List.drop_append_of_le_length hk]

lemma outcome_append_some (hs : Splits sub) {s s' : σ} {a : List β} {r : ρ} {k : ℕ}
    (b : List β) (h : pump sub s a = (s', some r, k)) :
    outcome sub s (a ++ b) = (s', some r, a.drop k ++ b) := by
  have hk : k ≤ a.length := eaten_le_of_pump hs h
  simp only [outcome, pump_append_some hs b h]
  rw [List.drop_append_of_le_length hk]

/-- The same, from the outcome of the call. -/
lemma outcome_append_of_some (hs : Splits sub) {s s' : σ} {a rest : List β} {r : ρ}
    (h : outcome sub s a = (s', some r, rest)) (b : List β) :
    outcome sub s (a ++ b) = (s', some r, rest ++ b) := by
  rw [outcome] at h
  rcases hpump : pump sub s a with ⟨t, o, k⟩
  simp only [hpump, Prod.mk.injEq] at h
  obtain ⟨rfl, rfl, rfl⟩ := h
  exact outcome_append_some hs b hpump

/-! ## Simulation -/

section Simulation

variable {τ : Type*} {sub' : τ → List β → τ × Option ρ × ℕ}

/-- Two turns, or two calls, that come to the same: the same bad result, or the same result and
the same number of bytes eaten with related states. -/
def Agree (R : σ → τ → Prop) (bad : ρ → Prop) (x : σ × Option ρ × ℕ) (y : τ × Option ρ × ℕ) :
    Prop :=
  (∃ r, bad r ∧ x.2.1 = some r ∧ y.2.1 = some r) ∨ R x.1 y.1 ∧ x.2 = y.2

/-- **The simulation rule**: sub-parsers that agree turn by turn agree call by call. -/
lemma pump_agree {R : σ → τ → Prop} {bad : ρ → Prop}
    (hsub : ∀ s t a, R s t → Agree R bad (sub s a) (sub' t a)) {s : σ} {t : τ} (h : R s t)
    (data : List β) : Agree R bad (pump sub s data) (pump sub' t data) := by
  induction hlen : data.length using Nat.strongRecOn generalizing s t data with
  | ind n ih =>
      subst hlen
      by_cases hnil : data = []
      · subst hnil
        exact .inr ⟨h, rfl⟩
      have hpos : 0 < data.length := List.length_pos_iff.mpr hnil
      rcases hx : sub s data with ⟨s', rx, k⟩
      rcases hy : sub' t data with ⟨t', ry, j⟩
      have hturn := hsub s t data h
      rw [hx, hy] at hturn
      rcases hturn with ⟨r, hbad, hrx, hry⟩ | ⟨hR, heq⟩
      · obtain rfl : rx = some r := hrx
        obtain rfl : ry = some r := hry
        rw [pump_of_some hnil hx, pump_of_some hnil hy]
        exact .inl ⟨r, hbad, rfl, rfl⟩
      · obtain ⟨rfl, rfl⟩ := Prod.mk.inj heq
        rcases rx with _ | r
        · rcases k with _ | k
          · rw [pump_of_stall hnil hx, pump_of_stall hnil hy]
            exact .inr ⟨hR, rfl⟩
          · rw [pump_of_eat (Nat.succ_pos k) hnil hx, pump_of_eat (Nat.succ_pos k) hnil hy]
            rcases ih (data.drop (k + 1)).length (by simp; omega) hR _ rfl with
              ⟨r, hbad, hrx, hry⟩ | ⟨hR', heq'⟩
            · exact .inl ⟨r, hbad, hrx, hry⟩
            · exact .inr ⟨hR', by rw [heq']⟩
        · rw [pump_of_some hnil hx, pump_of_some hnil hy]
          exact .inr ⟨hR, rfl⟩

end Simulation

end Wscpp.Incremental
