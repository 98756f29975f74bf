import LinuxDeviceDriver.Lib.Transition
import Mathlib.Data.List.Basic

/-!
# Linearizable objects

Threads run operations on a shared object step by step. To say that the operations behave as if each
of them were one step, run the system with two lists beside it (`Traced.step`): one gets an entry
when an operation takes effect, the other when an operation returns.

`linearizes` is the rule. It wants, of each step, that an effect is one the sequential object `spec`
allows, and that the thread's books are kept: what has taken effect and not returned is `pending`.
Its conclusion is that the first list is a legal history of the sequential object, and that each
thread's part of it is what the thread was told, in order, with what it still will be told. The
lists only grow, so an operation that has returned before another one was called stands before it.
-/

namespace Lib

universe u v w x y z

section Histories

variable {Q : Type u} {E : Type v}

/-- Histories that a sequential object allows, and where they lead. -/
inductive Legal (spec : Q → E → Q → Prop) (q₀ : Q) : List E → Q → Prop
  | nil : Legal spec q₀ [] q₀
  | snoc {es : List E} {q q' : Q} {e : E} :
      Legal spec q₀ es q → spec q e q' → Legal spec q₀ (es ++ [e]) q'

variable {T : Type w} [DecidableEq T]

/-- The entries of one thread. -/
def entriesOf (t : T) (log : List (T × E)) : List E :=
  (log.filter fun e => e.1 = t).map Prod.snd

theorem entriesOf_append (t : T) (log log' : List (T × E)) :
    entriesOf t (log ++ log') = entriesOf t log ++ entriesOf t log' := by
  rw [entriesOf, List.filter_append, List.map_append]
  rfl

@[simp] theorem entriesOf_nil (t : T) : entriesOf t ([] : List (T × E)) = [] := rfl

@[simp] theorem entriesOf_self (t : T) (e : E) : entriesOf t [(t, e)] = [e] := by
  simp [entriesOf]

theorem entriesOf_other {t u : T} (h : u ≠ t) (e : E) : entriesOf u [(t, e)] = [] := by
  simp [entriesOf, h.symm]

end Histories

variable {σ : Type u} {α : Type v} {T : Type w} {E : Type x} {A : Type y}

/-- A system, the operations that have taken effect and those that have returned. -/
structure Traced (σ : Type u) (T : Type w) (E : Type x) (A : Type y) where
  sys : σ
  log : List (T × E)
  returned : List (T × A)

def Traced.start (s : σ) : Traced σ T E A := ⟨s, [], []⟩

/-- One step; `effect` and `answer` say what the step means for its operation. -/
def Traced.step (step : σ → α → Option σ) (effect : σ → α → Option (T × E))
    (answer : σ → α → Option (T × A)) (s : Traced σ T E A) (a : α) : Option (Traced σ T E A) :=
  (step s.sys a).map fun sys =>
    { sys := sys
      log := s.log ++ (effect s.sys a).toList
      returned := s.returned ++ (answer s.sys a).toList }

variable {step : σ → α → Option σ} {effect : σ → α → Option (T × E)}
  {answer : σ → α → Option (T × A)}

theorem Traced.step_cases {s s' : Traced σ T E A} {a : α}
    (h : s.step step effect answer a = some s') :
    step s.sys a = some s'.sys ∧ s'.log = s.log ++ (effect s.sys a).toList ∧
      s'.returned = s.returned ++ (answer s.sys a).toList := by
  obtain ⟨sys, hstep, rfl⟩ := Option.map_eq_some_iff.mp h
  exact ⟨hstep, rfl, rfl⟩

/-- **Linearization rule**: `R` relates the system to the sequential object. -/
theorem linearizes [DecidableEq T] {Q : Type z} (spec : Q → E → Q → Prop) {s₀ : σ} {q₀ : Q}
    {R : σ → Q → Prop} (pending : σ → T → List A) {seen : E → A}
    (hinit : R s₀ q₀) (hnone : ∀ t, pending s₀ t = [])
    (hserves : ∀ {s s' : σ} {a : α} {q : Q}, R s q → step s a = some s' →
      (effect s a = none ∧ R s' q) ∨
        ∃ t e q', effect s a = some (t, e) ∧ spec q e q' ∧ R s' q')
    (hbooks : ∀ {s s' : σ} {a : α}, step s a = some s' → ∀ t,
      pending s t ++ (entriesOf t (effect s a).toList).map seen =
        entriesOf t (answer s a).toList ++ pending s' t)
    {s : Traced σ T E A} (h : Reach (Traced.step step effect answer) anyStep (.start s₀) s) :
    (∃ q, Legal spec q₀ (s.log.map Prod.snd) q ∧ R s.sys q) ∧
      ∀ t, (entriesOf t s.log).map seen = entriesOf t s.returned ++ pending s.sys t := by
  induction h with
  | init => exact ⟨⟨q₀, .nil, hinit⟩, fun t => (hnone t).symm⟩
  | tail _ _ hstep ih =>
    obtain ⟨⟨q, hlegal, hrel⟩, htold⟩ := ih
    obtain ⟨hsys, hlog, hreturned⟩ := Traced.step_cases hstep
    constructor
    · rcases hserves hrel hsys with ⟨heffect, hrel'⟩ | ⟨t, e, q', heffect, hspec, hrel'⟩
      · rw [hlog, heffect, Option.toList_none, List.append_nil]
        exact ⟨q, hlegal, hrel'⟩
      · rw [hlog, heffect, Option.toList_some, List.map_append]
        exact ⟨q', hlegal.snoc hspec, hrel'⟩
    · intro t
      rw [hlog, hreturned, entriesOf_append, entriesOf_append, List.map_append, htold,
        List.append_assoc, List.append_assoc, hbooks hsys]

end Lib
