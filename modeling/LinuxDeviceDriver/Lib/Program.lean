import Mathlib.Logic.Function.Basic

/-!
# Programs of atomic commands

`Prog C A α` is a program that calls commands `c : C`, each with an answer in
`A c`, and returns an `α`. What a command does is left open: `exec` interprets it
on a state.

- `Prog.run exec p s`: the whole program from `s`, with nobody else around. This is
  the meaning of sequential code.
- A concurrent system executes the same program one command at a time and keeps the
  rest of it in the thread. `Prog.run_call` is all that is needed to compare the two:
  a command moves the state and the rest along the same run.
- `Prog.All P p`: all commands of `p` satisfy `P`. What such commands keep, a run of
  `p` keeps (`Prog.All.run_keeps`).
- `Serial exec s₀ log s`: running the programs of `log` one after the other from
  `s₀` gives their recorded results and ends in `s`. A system of critical sections
  keeps `Section`: the completed programs are serial, and the one that is inside is
  somewhere on its own run from there.
-/

namespace Lib

universe u v w x

/-- Programs over the commands `C` with answers `A`. -/
inductive Prog (C : Type u) (A : C → Type v) (α : Type w)
  | ret (a : α)
  | call (c : C) (next : A c → Prog C A α)

namespace Prog

variable {C : Type u} {A : C → Type v} {α β : Type w} {σ : Type x}

/-- Sequencing. -/
def bind : Prog C A α → (α → Prog C A β) → Prog C A β
  | ret a, f => f a
  | call c next, f => call c fun r => (next r).bind f

instance : Monad (Prog C A) where
  pure := ret
  bind := bind

/-- The meaning of a program on a state. -/
def run (exec : (c : C) → σ → A c × σ) : Prog C A α → σ → α × σ
  | ret a, s => (a, s)
  | call c next, s => (next (exec c s).1).run exec (exec c s).2

variable (exec : (c : C) → σ → A c × σ)

@[simp] theorem run_ret (a : α) (s : σ) : (ret a : Prog C A α).run exec s = (a, s) := rfl

@[simp] theorem run_pure (a : α) (s : σ) : (pure a : Prog C A α).run exec s = (a, s) := rfl

@[simp] theorem run_call (c : C) (next : A c → Prog C A α) (s : σ) :
    (call c next).run exec s = (next (exec c s).1).run exec (exec c s).2 := rfl

/-- Runs compose. -/
@[simp] theorem run_bind (p : Prog C A α) (f : α → Prog C A β) (s : σ) :
    (p >>= f).run exec s = (f (p.run exec s).1).run exec (p.run exec s).2 := by
  show (p.bind f).run exec s = _
  induction p generalizing s with
  | ret a => rfl
  | call c next ih => exact ih _ _

@[simp] theorem run_ite (b : Prop) [Decidable b] (p q : Prog C A α) (s : σ) :
    (if b then p else q).run exec s = if b then p.run exec s else q.run exec s := by
  split <;> rfl

/-- Every command the program may issue satisfies `P`, whatever the answers are. -/
def All (P : C → Prop) : Prog C A α → Prop
  | ret _ => True
  | call c next => P c ∧ ∀ r, (next r).All P

theorem All.bind {P : C → Prop} {p : Prog C A α} {f : α → Prog C A β} (hp : p.All P)
    (hf : ∀ a, (f a).All P) : (p >>= f).All P := by
  show (p.bind f).All P
  induction p with
  | ret a => exact hf a
  | call c next ih => exact ⟨hp.1, fun r => ih r (hp.2 r)⟩

/-- What every command keeps, the run of the program keeps. -/
theorem All.run_keeps {P : C → Prop} {I : σ → Prop} {exec : (c : C) → σ → A c × σ}
    (hexec : ∀ c, P c → ∀ s, I s → I (exec c s).2) {p : Prog C A α} (hp : p.All P) {s : σ}
    (hs : I s) : I (p.run exec s).2 := by
  induction p generalizing s with
  | ret a => exact hs
  | call c next ih => exact ih _ (hp.2 _) (hexec c hp.1 s hs)

end Prog

section Serial

variable {C : Type u} {A : C → Type v} {α : Type w} {σ : Type x}
variable {exec : (c : C) → σ → A c × σ} {s₀ : σ}

/-- The programs of the log, newest first, executed one after the other. -/
def Serial (exec : (c : C) → σ → A c × σ) (s₀ : σ) : List (Prog C A α × α) → σ → Prop
  | [], s => s = s₀
  | (p, a) :: log, s' => ∃ s, Serial exec s₀ log s ∧ p.run exec s = (a, s')

/-- Program `p` entered after the programs of the log, and has `rest` still to do. -/
def Section (exec : (c : C) → σ → A c × σ) (s₀ : σ) (log : List (Prog C A α × α))
    (p rest : Prog C A α) (s : σ) : Prop :=
  ∃ s₁, Serial exec s₀ log s₁ ∧ p.run exec s₁ = rest.run exec s

variable {log : List (Prog C A α × α)} {p : Prog C A α} {s : σ}

theorem Serial.enter (h : Serial exec s₀ log s) (p : Prog C A α) : Section exec s₀ log p p s :=
  ⟨s, h, rfl⟩

/-- One command of the program inside. -/
theorem Section.step {c : C} {next : A c → Prog C A α}
    (h : Section exec s₀ log p (.call c next) s) :
    Section exec s₀ log p (next (exec c s).1) (exec c s).2 := h

/-- The program inside has returned. -/
theorem Section.leave {a : α} (h : Section exec s₀ log p (.ret a) s) :
    Serial exec s₀ ((p, a) :: log) s := h

end Serial

end Lib
