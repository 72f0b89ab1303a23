import Mathlib.Logic.Relation

/-!
# Runs of a system that makes moves

A system is a partial step function `step : σ → μ → Option σ`: a move is possible in a state or
it is not.  Several parties that take turns are one such system, a move naming the party and what
it does, and a run is then an interleaving of theirs.

A condition `C : σ → μ → Prop` says of each state which moves a run may make in it.
`Runs step C s t` says that some run from `s` to `t` keeps the condition; `Runs.invariant` is the
rule for what holds along such runs.  To exhibit a run one gives the list of its moves: `play`
makes them, `allowed` checks the condition on the way.
-/

namespace Wscpp.Moves

variable {σ μ : Type} (step : σ → μ → Option σ)

/-- One move that keeps the condition. -/
def MovesTo (C : σ → μ → Prop) (s t : σ) : Prop := ∃ m, C s m ∧ step s m = some t

/-- Any number of moves that keep the condition. -/
def Runs (C : σ → μ → Prop) : σ → σ → Prop := Relation.ReflTransGen (MovesTo step C)

/-- **The invariant rule.**  What every permitted move preserves holds along every run. -/
theorem Runs.invariant {step : σ → μ → Option σ} {C : σ → μ → Prop} {I : σ → Prop} {s t : σ}
    (hrun : Runs step C s t) (hstart : I s)
    (hstep : ∀ s m t, I s → C s m → step s m = some t → I t) : I t := by
  induction hrun with
  | refl => exact hstart
  | tail _ hmove ih =>
      obtain ⟨m, hC, hm⟩ := hmove
      exact hstep _ m _ ih hC hm

/-- The state after a list of moves, if all of them are possible. -/
def play (s : σ) : List μ → Option σ
  | [] => some s
  | m :: ms =>
      match step s m with
      | none => none
      | some t => play t ms

/-- The moves of a list keep the condition, as far as they are possible. -/
def allowed (C : σ → μ → Bool) (s : σ) : List μ → Bool
  | [] => true
  | m :: ms =>
      C s m &&
        match step s m with
        | none => true
        | some t => allowed C t ms

/-- A list of moves that can be played and keeps the condition is a run. -/
theorem runs_of_play {C : σ → μ → Prop} {D : σ → μ → Bool} (hD : ∀ s m, D s m = true → C s m)
    (ms : List μ) {s t : σ} (hplay : play step s ms = some t)
    (hallowed : allowed step D s ms = true) : Runs step C s t := by
  induction ms generalizing s with
  | nil =>
      simp only [play, Option.some.injEq] at hplay
      subst hplay
      exact .refl
  | cons m ms ih =>
      rw [play] at hplay
      rw [allowed, Bool.and_eq_true] at hallowed
      cases hm : step s m with
      | none => simp [hm] at hplay
      | some u =>
          simp only [hm] at hplay hallowed
          exact .head ⟨m, hD s m hallowed.1, hm⟩ (ih hplay hallowed.2)

end Wscpp.Moves
