import Wscpp.Lib.Locks
import Mathlib.Logic.Relation
import Mathlib.Algebra.BigOperators.Group.Finset.Basic

/-!
# Threads that wait for each other

A thread that wants a lock waits for its owner (`WaitsFor`).  Threads that wait in a circle wait for
ever.  The usual remedy is an order of the locks: where every program takes a lock only while all
that it holds are of smaller rank (`Ranked`), the ranks grow along a chain of waiting threads, and
the chain ends at one that does not wait for a lock (`Owned.exists_unblocked`).

That nobody is stuck does not say that they come to an end.  For that a measure of what is left to
do must get smaller with every step (`acc_of_decreasing`); where it is a sum over the threads,
`sum_update` says what becomes of it when one of them moves.
-/

namespace Wscpp.Locks

variable {μ α ι : Type} [DecidableEq μ] {rank : μ → ℕ}

/-! ## Programs that respect the order -/

/-- Where a lock is taken, those that are held are of smaller rank. -/
def Ranked (rank : μ → ℕ) : List (Op μ α) → Prop :=
  Along fun op rest =>
    match op with
    | .lock m => ∀ m', holds m' (.lock m :: rest) = true → rank m' < rank m
    | _ => True

section Ranked

variable {m : μ} {a : α} {rest : List (Op μ α)}

@[simp] lemma ranked_nil : Ranked rank ([] : List (Op μ α)) := trivial

@[simp] lemma ranked_lock : Ranked rank (.lock m :: rest) ↔
    (∀ m', holds m' (.lock m :: rest) = true → rank m' < rank m) ∧ Ranked rank rest := Iff.rfl

@[simp] lemma ranked_unlock : Ranked rank (.unlock m :: rest) ↔ Ranked rank rest := by
  simp [Ranked, Along]

@[simp] lemma ranked_act : Ranked rank (.act a :: rest) ↔ Ranked rank rest := by
  simp [Ranked, Along]

lemma ranked_unwind (rest : List (Op μ α)) (done : List μ) : Ranked rank (unwind done rest) := by
  have hreleases : ∀ code : List (Op μ α), Releases code → Ranked rank code := by
    intro code hcode
    induction hcode with
    | nil => exact ranked_nil
    | cons _ _ ih => exact ranked_unlock.mpr ih
  exact hreleases _ (releases_unwind rest done)

/-- The same as a test, over a list of the locks. -/
def rankedIn (locks : List μ) (rank : μ → ℕ) : List (Op μ α) → Bool
  | [] => true
  | .lock m :: rest =>
      locks.all (fun m' => !holds m' (.lock m :: rest) || decide (rank m' < rank m)) &&
        rankedIn locks rank rest
  | .unlock _ :: rest => rankedIn locks rank rest
  | .act _ :: rest => rankedIn locks rank rest

lemma ranked_of_rankedIn {locks : List μ} (hlocks : ∀ m, m ∈ locks)
    (h : rankedIn locks rank rest = true) : Ranked rank rest := by
  induction rest with
  | nil => exact ranked_nil
  | cons op rest ih =>
      cases op with
      | lock m =>
          rw [rankedIn, Bool.and_eq_true, List.all_eq_true] at h
          refine ranked_lock.mpr ⟨?_, ih h.2⟩
          intro m' hheld
          simpa [hheld] using h.1 m' (hlocks m')
      | unlock m => exact ranked_unlock.mpr (ih h)
      | act a => exact ranked_act.mpr (ih h)

end Ranked

/-! ## Waiting -/

/-- The thread wants a lock that the other one has. -/
def WaitsFor (owner : μ → Option ι) (rest : ι → List (Op μ α)) (t u : ι) : Prop :=
  ∃ m after, rest t = .lock m :: after ∧ owner m = some u

/-- The thread does not wait for a lock. -/
def Unblocked (owner : μ → Option ι) (rest : ι → List (Op μ α)) (t : ι) : Prop :=
  ∀ m after, rest t = .lock m :: after → owner m = none

variable {owner : μ → Option ι} {rest : ι → List (Op μ α)}

/-- A thread that another one waits for is in a call. -/
lemma Owned.ne_nil_of_waitsFor {t u : ι} (howned : Owned owner rest)
    (h : WaitsFor owner rest t u) : rest u ≠ [] := by
  obtain ⟨m, after, -, howner⟩ := h
  intro hnil
  have hheld := (howned m u).mp howner
  rw [hnil, holds_nil] at hheld
  cases hheld

/-- The owner of a lock that waits itself wants one of higher rank. -/
lemma Owned.rank_lt {u : ι} {m m' : μ} {after : List (Op μ α)} (howned : Owned owner rest)
    (hranked : Ranked rank (rest u)) (howner : owner m = some u)
    (hrest : rest u = .lock m' :: after) : rank m < rank m' := by
  have hheld := (howned m u).mp howner
  rw [hrest] at hheld hranked
  exact (ranked_lock.mp hranked).1 m hheld

/-- **Nobody waits in a circle.**  Whom a thread waits for, and whom that one waits for, and so on,
ends at a thread that is in a call and does not wait for a lock. -/
theorem Owned.exists_unblocked (howned : Owned owner rest) (hranked : ∀ t, Ranked rank (rest t))
    {bound : ℕ} (hbound : ∀ m, rank m ≤ bound) {t : ι} (ht : rest t ≠ []) :
    ∃ u, Relation.ReflTransGen (WaitsFor owner rest) t u ∧ Unblocked owner rest u ∧
      rest u ≠ [] := by
  -- by induction on how many ranks are left above the lock that is wanted
  have hchain : ∀ n t m after, rest t = .lock m :: after → bound - rank m < n →
      ∃ u, Relation.ReflTransGen (WaitsFor owner rest) t u ∧ Unblocked owner rest u ∧
        rest u ≠ [] := by
    intro n
    induction n with
    | zero => exact fun _ _ _ _ hn => absurd hn (Nat.not_lt_zero _)
    | succ n ih =>
        intro t m after hrest hn
        cases howner : owner m with
        | none =>
            refine ⟨t, .refl, ?_, by simp [hrest]⟩
            intro m' after' hrest'
            rw [hrest, List.cons.injEq, Op.lock.injEq] at hrest'
            rw [← hrest'.1]
            exact howner
        | some u =>
            have hwaits : WaitsFor owner rest t u := ⟨m, after, hrest, howner⟩
            by_cases hu : ∃ m' after', rest u = .lock m' :: after'
            · obtain ⟨m', after', hrest'⟩ := hu
              have hlt := howned.rank_lt (hranked u) howner hrest'
              have hle := hbound m'
              obtain ⟨v, hv, hfree⟩ := ih u m' after' hrest' (by omega)
              exact ⟨v, .head hwaits hv, hfree⟩
            · refine ⟨u, .single hwaits, ?_, howned.ne_nil_of_waitsFor hwaits⟩
              intro m' after' hrest'
              exact absurd ⟨m', after', hrest'⟩ hu
  by_cases hlock : ∃ m after, rest t = .lock m :: after
  · obtain ⟨m, after, hrest⟩ := hlock
    exact hchain _ t m after hrest (Nat.lt_succ_self _)
  · refine ⟨t, .refl, ?_, ht⟩
    intro m after hrest
    exact absurd ⟨m, after, hrest⟩ hlock

end Wscpp.Locks

namespace Wscpp.Moves

/-! ## Coming to an end -/

/-- **Steps that leave less to do come to an end**, in whatever order they are taken. -/
theorem acc_of_decreasing {σ β : Type} {R : σ → σ → Prop} {I : σ → Prop} {lt : β → β → Prop}
    (hwf : WellFounded lt) (left : σ → β)
    (hstep : ∀ s s', I s → R s s' → I s' ∧ lt (left s') (left s)) {s : σ} (h : I s) :
    Acc (fun s' s => R s s') s := by
  induction hleft : left s using hwf.induction generalizing s with
  | h n ih =>
      constructor
      intro s' hR
      obtain ⟨h', hlt⟩ := hstep s s' h hR
      exact ih _ (hleft ▸ hlt) h' rfl

/-- A sum over the threads of which one has changed. -/
lemma sum_update {ι α : Type} [DecidableEq ι] [Fintype ι] (f : α → ℕ) (g : ι → α) (t : ι) (a : α) :
    ∑ u, f (Function.update g t a u) + f (g t) = ∑ u, f (g u) + f a := by
  rw [← Finset.add_sum_erase _ _ (Finset.mem_univ t),
    ← Finset.add_sum_erase _ (fun u => f (g u)) (Finset.mem_univ t), Function.update_self]
  have hothers : ∑ u ∈ Finset.univ.erase t, f (Function.update g t a u) =
      ∑ u ∈ Finset.univ.erase t, f (g u) := by
    refine Finset.sum_congr rfl fun u hu => ?_
    rw [Function.update_of_ne (Finset.ne_of_mem_erase hu)]
  rw [hothers]
  omega

end Wscpp.Moves
