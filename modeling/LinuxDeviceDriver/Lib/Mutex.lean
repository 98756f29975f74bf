import Mathlib.Logic.Function.Basic

/-!
# Mutex discipline of a pool of threads

Threads are given by their program points `pc : T → P`; `holds p` says that a
thread standing at `p` is between taking and releasing the mutex. `MutexInv`
ties this to the owner recorded in the mutex. One lemma per kind of step keeps
it: `acquire`, `release`, and `stay` for every statement that neither takes nor
releases the lock.
-/

namespace Lib

universe u v

variable {T : Type u} {P : Type v} [DecidableEq T]

/-- The recorded owner is exactly the thread inside the critical section. -/
def MutexInv (holds : P → Bool) (owner : Option T) (pc : T → P) : Prop :=
  ∀ t, owner = some t ↔ holds (pc t) = true

namespace MutexInv

variable {holds : P → Bool} {owner : Option T} {pc : T → P}

omit [DecidableEq T] in
/-- At most one thread is inside. -/
theorem exclusive (h : MutexInv holds owner pc) {t u : T} (ht : holds (pc t) = true)
    (hu : holds (pc u) = true) : t = u := by
  have h₁ := (h t).mpr ht
  have h₂ := (h u).mpr hu
  rw [h₁] at h₂
  exact Option.some.inj h₂

omit [DecidableEq T] in
/-- Nobody is inside a free mutex. -/
theorem outside (h : MutexInv holds owner pc) (hfree : owner = none) (t : T) :
    holds (pc t) = false := by
  cases hp : holds (pc t) with
  | false => rfl
  | true => exact absurd ((h t).mpr hp) (by simp [hfree])

theorem acquire (h : MutexInv holds owner pc) (hfree : owner = none) {t : T} {p : P}
    (hp : holds p = true) : MutexInv holds (some t) (Function.update pc t p) := by
  intro u
  by_cases hut : u = t
  · subst hut
    simp [hp]
  · rw [Function.update_of_ne hut, h.outside hfree u]
    simp [Ne.symm hut]

theorem release (h : MutexInv holds owner pc) {t : T} {p : P} (ht : holds (pc t) = true)
    (hp : holds p = false) : MutexInv holds none (Function.update pc t p) := by
  intro u
  by_cases hut : u = t
  · subst hut
    simp [hp]
  · rw [Function.update_of_ne hut]
    have hu : ¬ holds (pc u) = true := fun hu => hut (h.exclusive hu ht)
    simp [hu]

theorem stay (h : MutexInv holds owner pc) {t : T} {p : P} (hp : holds p = holds (pc t)) :
    MutexInv holds owner (Function.update pc t p) := by
  intro u
  by_cases hut : u = t
  · subst hut
    rw [Function.update_self, hp]
    exact h u
  · rw [Function.update_of_ne hut]
    exact h u

end MutexInv

end Lib
