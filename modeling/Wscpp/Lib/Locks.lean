import Mathlib.Logic.Function.Basic
import Mathlib.Data.List.Basic

/-!
# Threads that take locks

What is left of a thread's call is a list of operations: taking a lock, releasing one, or an action
on data.  Which locks the thread has can be read off that list, since a call releases what it has
taken: a lock is held if the list releases it before it takes it (`holds`).  An operation is
`Paired` with what follows it if a lock that it takes is released later, and a lock that it
releases is not released again.

`Owned owner rest` says that the owners of the locks are those that the programs `rest` of the
threads say.  The three kinds of operations keep it (`Owned.lock`, `Owned.unlock`, `Owned.act`), and
it is all that mutual exclusion needs: two threads never hold the same lock (`Owned.unique`).

A call that fails leaves through the releases of what it holds; `unwind` is what is left of it then.
-/

namespace Wscpp.Locks

/-- The operations of a program with locks `μ` and actions `α`. -/
inductive Op (μ α : Type)
  | lock (m : μ)
  | unlock (m : μ)
  | act (a : α)
  deriving DecidableEq, Repr

variable {μ α ι : Type} [DecidableEq μ]

/-! ## Programs -/

/-- A thread with this program holds the lock. -/
def holds (m : μ) : List (Op μ α) → Bool
  | [] => false
  | .lock m' :: rest => if m' = m then false else holds m rest
  | .unlock m' :: rest => if m' = m then true else holds m rest
  | .act _ :: rest => holds m rest

@[simp] lemma holds_nil (m : μ) : holds m ([] : List (Op μ α)) = false := rfl

@[simp] lemma holds_lock (m m' : μ) (rest : List (Op μ α)) :
    holds m (.lock m' :: rest) = if m' = m then false else holds m rest := rfl

@[simp] lemma holds_unlock (m m' : μ) (rest : List (Op μ α)) :
    holds m (.unlock m' :: rest) = if m' = m then true else holds m rest := rfl

@[simp] lemma holds_act (m : μ) (a : α) (rest : List (Op μ α)) :
    holds m (.act a :: rest) = holds m rest := rfl

/-- What is taken is released, and nothing is released twice. -/
def Paired : Op μ α → List (Op μ α) → Prop
  | .lock m, rest => holds m rest = true
  | .unlock m, rest => holds m rest = false
  | .act _, _ => True

/-- Every operation of a program is as it should be with what follows it. -/
def Along (P : Op μ α → List (Op μ α) → Prop) : List (Op μ α) → Prop
  | [] => True
  | op :: rest => P op rest ∧ Along P rest

/-- The releases of what a program holds, except for the locks in `done`. -/
def unwind (done : List μ) : List (Op μ α) → List (Op μ α)
  | [] => []
  | .lock m :: rest => unwind (m :: done) rest
  | .unlock m :: rest =>
      if m ∈ done then unwind done rest else .unlock m :: unwind (m :: done) rest
  | .act _ :: rest => unwind done rest

lemma holds_unwind (m : μ) (rest : List (Op μ α)) (done : List μ) :
    holds m (unwind done rest) = if m ∈ done then false else holds m rest := by
  induction rest generalizing done with
  | nil => simp [unwind]
  | cons op rest ih =>
      cases op with
      | lock m' =>
          rw [unwind, ih, holds_lock]
          by_cases hm : m' = m
          · simp [hm]
          · simp [hm, Ne.symm hm]
      | unlock m' =>
          by_cases hmem : m' ∈ done
          · rw [unwind, if_pos hmem, ih, holds_unlock]
            by_cases hm : m' = m
            · subst hm
              simp [hmem]
            · simp [hm]
          · rw [unwind, if_neg hmem, holds_unlock, holds_unlock, ih]
            by_cases hm : m' = m
            · subst hm
              simp [hmem]
            · simp [hm, Ne.symm hm]
      | act a => rw [unwind, ih, holds_act]

@[simp] lemma holds_unwind_nil (m : μ) (rest : List (Op μ α)) :
    holds m (unwind [] rest) = holds m rest := by
  simp [holds_unwind]

lemma mem_of_mem_unwind {op : Op μ α} {rest : List (Op μ α)} {done : List μ}
    (h : op ∈ unwind done rest) : op ∈ rest := by
  induction rest generalizing done with
  | nil => exact h
  | cons op' rest ih =>
      cases op' with
      | lock m => exact List.mem_cons_of_mem _ (ih h)
      | unlock m =>
          rw [unwind] at h
          split at h
          · exact List.mem_cons_of_mem _ (ih h)
          · rcases List.mem_cons.mp h with rfl | h
            · exact List.mem_cons_self
            · exact List.mem_cons_of_mem _ (ih h)
      | act a => exact List.mem_cons_of_mem _ (ih h)

/-- What is left of a call that leaves is releases, each lock once. -/
inductive Releases : List (Op μ α) → Prop
  | nil : Releases []
  | cons {m : μ} {rest : List (Op μ α)} (hm : holds m rest = false) (hrest : Releases rest) :
      Releases (.unlock m :: rest)

lemma releases_unwind (rest : List (Op μ α)) (done : List μ) : Releases (unwind done rest) := by
  induction rest generalizing done with
  | nil => exact .nil
  | cons op rest ih =>
      cases op with
      | lock m => exact ih _
      | unlock m =>
          rw [unwind]
          split
          · exact ih _
          · exact .cons (by simp [holds_unwind]) (ih _)
      | act a => exact ih _

/-! ## Owners -/

/-- The owner of each lock is the thread that holds it. -/
def Owned (owner : μ → Option ι) (rest : ι → List (Op μ α)) : Prop :=
  ∀ m t, owner m = some t ↔ holds m (rest t) = true

variable {owner : μ → Option ι} {rest : ι → List (Op μ α)} {t u : ι} {m : μ}
  {after : List (Op μ α)}

lemma owned_idle : Owned (fun _ : μ => (none : Option ι)) fun _ => ([] : List (Op μ α)) := by
  intro m t
  simp

/-- **Mutual exclusion.** -/
lemma Owned.unique (h : Owned owner rest) (ht : holds m (rest t) = true)
    (hu : holds m (rest u) = true) : t = u := by
  have howner := (h m t).mpr ht
  rw [(h m u).mpr hu] at howner
  exact (Option.some.inj howner).symm

lemma Owned.not_holds (h : Owned owner rest) (hfree : owner m = none) :
    holds m (rest t) = false := by
  by_contra hheld
  have howner := (h m t).mpr (by simpa using hheld)
  rw [hfree] at howner
  simp at howner

variable [DecidableEq ι]

/-- A free lock is taken. -/
lemma Owned.lock (h : Owned owner rest) (hrest : rest t = .lock m :: after)
    (hfree : owner m = none) (hafter : holds m after = true) :
    Owned (Function.update owner m (some t)) (Function.update rest t after) := by
  intro m' u
  by_cases hm : m' = m
  · subst hm
    rw [Function.update_self]
    by_cases hu : u = t
    · subst hu
      simp [hafter]
    · have hnot := h.not_holds (t := u) hfree
      simp [hu, Ne.symm hu, hnot]
  · rw [Function.update_of_ne hm]
    by_cases hu : u = t
    · subst hu
      rw [h m' u, hrest, Function.update_self, holds_lock, if_neg (Ne.symm hm)]
    · rw [Function.update_of_ne hu]
      exact h m' u

/-- A lock is released. -/
lemma Owned.unlock (h : Owned owner rest) (hrest : rest t = .unlock m :: after)
    (hafter : holds m after = false) :
    Owned (Function.update owner m none) (Function.update rest t after) := by
  have hown : owner m = some t := (h m t).mpr (by simp [hrest])
  intro m' u
  by_cases hm : m' = m
  · subst hm
    rw [Function.update_self]
    by_cases hu : u = t
    · subst hu
      simp [hafter]
    · rw [Function.update_of_ne hu, ← h m' u, hown]
      simp [Ne.symm hu]
  · rw [Function.update_of_ne hm]
    by_cases hu : u = t
    · subst hu
      rw [h m' u, hrest, Function.update_self, holds_unlock, if_neg (Ne.symm hm)]
    · rw [Function.update_of_ne hu]
      exact h m' u

lemma Owned.act (h : Owned owner rest) (hafter : ∀ m, holds m after = holds m (rest t)) :
    Owned owner (Function.update rest t after) := by
  intro m u
  by_cases hu : u = t
  · subst hu
    rw [Function.update_self, hafter]
    exact h m u
  · rw [Function.update_of_ne hu]
    exact h m u

end Wscpp.Locks
