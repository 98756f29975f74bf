import Mathlib.Logic.Function.Basic

/-!
# Guarded runs of executable transition systems

A system is an executable partial step `step : σ → α → Option σ`: `none` means
that the action is not enabled. Drivers are modelled by such systems, one action
per atomic statement of one task, so an interleaving is a list of actions.

- `runFrom step s as`: run a list of actions (used to exhibit concrete runs, and
  with `checked` to exhibit runs that meet a guard).
- `Reach step g s₀ s`: `s` is reached from `s₀` by steps that each meet the
  guard `g` on the state before the step. The unguarded system is
  `Reach step anyStep s₀`.
- `Reach.invariant`: the one induction over runs. Every safety theorem of the
  development is "holds initially" plus "one guarded step preserves it".
- `Reach.simulated`: forward simulation by a coarser system, which may stand still
  while the finer one moves.
- `length_le_of_falling`, `exists_stuck`: steps that lower a measure make runs short, and
  lead to a state in which nothing is enabled.
- `Along next P s as`: every call of a sequence meets `P` where it is made, for
  systems whose steps are total functions. `along_iff` compares two such properties.
- `answers step s as`: the results of a sequence of calls, for such systems too.
  `answers_refine` is the simulation rule for them: related states answer alike.
-/

namespace Lib

universe u v w x

variable {σ : Type u} {α : Type v}

/-- Run a list of actions, stopping with `none` at the first disabled one. -/
def runFrom (step : σ → α → Option σ) : σ → List α → Option σ
  | s, [] => some s
  | s, a :: as => (step s a).bind fun s' => runFrom step s' as

/-- The guard every step meets. -/
def anyStep : σ → α → Prop := fun _ _ => True

/-- States reached from `s₀` by steps that each meet the guard `g`. -/
inductive Reach (step : σ → α → Option σ) (g : σ → α → Prop) (s₀ : σ) : σ → Prop
  | init : Reach step g s₀ s₀
  | tail {s s' : σ} {a : α} :
      Reach step g s₀ s → g s a → step s a = some s' → Reach step g s₀ s'

variable {step : σ → α → Option σ} {g : σ → α → Prop} {s₀ : σ}

/-- **Invariant rule**: what holds initially and is preserved by every guarded
step holds in every state reached. -/
theorem Reach.invariant {I : σ → Prop} (hinit : I s₀)
    (hstep : ∀ {s s' : σ} {a : α}, I s → g s a → step s a = some s' → I s')
    {s : σ} (h : Reach step g s₀ s) : I s := by
  induction h with
  | init => exact hinit
  | tail _ hg hs ih => exact hstep ih hg hs

/-- The invariant rule when the step also relies on what is known of reached states. -/
theorem Reach.invariant_reached {I : σ → Prop} (hinit : I s₀)
    (hstep : ∀ {s s' : σ} {a : α}, Reach step g s₀ s → I s → g s a → step s a = some s' → I s')
    {s : σ} (h : Reach step g s₀ s) : I s := by
  induction h with
  | init => exact hinit
  | tail hreach hg hs ih => exact hstep hreach ih hg hs

/-- A weaker guard reaches at least as much. -/
theorem Reach.mono {g' : σ → α → Prop} (hg : ∀ s a, g s a → g' s a) {s : σ}
    (h : Reach step g s₀ s) : Reach step g' s₀ s :=
  h.invariant_reached .init fun _ ih hguard hstep => ih.tail (hg _ _ hguard) hstep

/-- Runs compose. -/
theorem Reach.trans {s s' : σ} (h : Reach step g s₀ s) (h' : Reach step g s s') :
    Reach step g s₀ s' :=
  h'.invariant h fun ih hguard hstep => ih.tail hguard hstep

/-- **Simulation rule**: when every guarded step is matched by a step of the coarser
system or by none, every reached state has a reached counterpart. -/
theorem Reach.simulated {τ : Type w} {β : Type x} {step' : τ → β → Option τ} {t₀ : τ}
    {R : σ → τ → Prop} (hinit : R s₀ t₀)
    (hstep : ∀ {s s' : σ} {a : α} {t : τ}, Reach step g s₀ s → R s t → g s a →
      step s a = some s' → R s' t ∨ ∃ b t', step' t b = some t' ∧ R s' t')
    {s : σ} (h : Reach step g s₀ s) : ∃ t, Reach step' anyStep t₀ t ∧ R s t := by
  refine h.invariant_reached (I := fun s => ∃ t, Reach step' anyStep t₀ t ∧ R s t)
    ⟨t₀, .init, hinit⟩ ?_
  rintro s s' a hreach ⟨t, ht, hR⟩ hguard hs
  rcases hstep hreach hR hguard hs with hstill | ⟨b, t', hb, hR'⟩
  · exact ⟨t, ht, hstill⟩
  · exact ⟨t', ht.tail trivial hb, hR'⟩

/-- A run prolongs a reached state, when its guard holds of everything. -/
theorem Reach.of_runFrom {s s' : σ} (h : Reach step anyStep s₀ s) :
    ∀ {as : List α}, runFrom step s as = some s' → Reach step anyStep s₀ s'
  | [], hrun => by
    cases hrun
    exact h
  | a :: as, hrun => by
    obtain ⟨s₁, hs₁, hrest⟩ := Option.bind_eq_some_iff.mp hrun
    exact Reach.of_runFrom (h.tail trivial hs₁) hrest

/-- The end of a concrete run is reached. -/
theorem reach_runFrom {s : σ} {as : List α} (h : runFrom step s₀ as = some s) :
    Reach step anyStep s₀ s :=
  Reach.init.of_runFrom h

/-- A run goes on by one action. -/
theorem runFrom_concat {s s' : σ} {a : α} :
    ∀ {s₀ : σ} {as : List α}, runFrom step s₀ as = some s → step s a = some s' →
      runFrom step s₀ (as ++ [a]) = some s'
  | _, [], hrun, hstep => by
    cases hrun
    show (step s a).bind _ = _
    rw [hstep]
    rfl
  | s₀, b :: as, hrun, hstep => by
    obtain ⟨s₁, hs₁, hrest⟩ := Option.bind_eq_some_iff.mp hrun
    show (step s₀ b).bind _ = _
    rw [hs₁]
    exact runFrom_concat hrest hstep

section Termination

variable {μ : σ → Nat}

/-- **Termination rule**: when every step lowers the measure, a run is no longer than that. -/
theorem length_le_of_falling (hfall : ∀ {s s' : σ} {a : α}, step s a = some s' → μ s' < μ s) :
    ∀ {as : List α} {s s' : σ}, runFrom step s as = some s' → as.length + μ s' ≤ μ s
  | [], _, _, hrun => by
    cases hrun
    exact Nat.le_of_eq (Nat.zero_add _)
  | a :: as, s, s', hrun => by
    obtain ⟨s₁, hs₁, hrest⟩ := Option.bind_eq_some_iff.mp hrun
    have hshort := length_le_of_falling hfall hrest
    have hlower := hfall hs₁
    rw [List.length_cons]
    omega

/-- Such a system comes to a state in which nothing is enabled. -/
theorem exists_stuck (hfall : ∀ {s s' : σ} {a : α}, step s a = some s' → μ s' < μ s) (s : σ) :
    ∃ as s', runFrom step s as = some s' ∧ ∀ a, step s' a = none := by
  by_cases hstuck : ∀ a, step s a = none
  · exact ⟨[], s, rfl, hstuck⟩
  · obtain ⟨a, ha⟩ := not_forall.mp hstuck
    obtain ⟨s₁, hs₁⟩ := Option.ne_none_iff_exists'.mp ha
    obtain ⟨as, s', hrun, hend⟩ := exists_stuck hfall s₁
    refine ⟨a :: as, s', ?_, hend⟩
    rw [runFrom, hs₁]
    exact hrun
termination_by μ s
decreasing_by exact hfall hs₁

end Termination

/-- The system whose steps pass an executable check first. -/
def checked (step : σ → α → Option σ) (ok : σ → α → Bool) (s : σ) (a : α) : Option σ :=
  if ok s a then step s a else none

/-- A concrete run whose steps pass a check that implies the guard. -/
theorem reach_checked {ok : σ → α → Bool} (hok : ∀ s a, ok s a = true → g s a) {s : σ}
    {as : List α} (h : runFrom (checked step ok) s₀ as = some s) : Reach step g s₀ s := by
  refine (reach_runFrom h).invariant Reach.init ?_
  intro s s' a hreach _ hstep
  unfold checked at hstep
  split at hstep
  · next hcheck => exact hreach.tail (hok s a hcheck) hstep
  · cases hstep

/-- Every action of the sequence meets `P` in the state it finds. -/
def Along (next : σ → α → σ) (P : σ → α → Prop) : σ → List α → Prop
  | _, [] => True
  | s, a :: as => P s a ∧ Along next P (next s a) as

/-- A property of the actions alone holds along a sequence when it holds of its members. -/
theorem along_forall (next : σ → α → σ) (Q : α → Prop) (as : List α) :
    ∀ s : σ, Along next (fun _ => Q) s as ↔ ∀ a ∈ as, Q a := by
  induction as with
  | nil => exact fun _ => iff_of_true trivial fun _ h => absurd h List.not_mem_nil
  | cons a as ih =>
    intro s
    exact (and_congr_right fun _ => ih (next s a)).trans List.forall_mem_cons.symm

/-- Two properties agree along a sequence, when they agree in every state of an invariant
that actions with the property keep. -/
theorem along_iff {next : σ → α → σ} {I : σ → Prop} {V P Q : σ → α → Prop}
    (hiff : ∀ {s : σ} {a : α}, I s → V s a → (P s a ↔ Q s a))
    (hnext : ∀ {s : σ} {a : α}, I s → V s a → Q s a → I (next s a)) {as : List α} :
    ∀ {s : σ}, I s → Along next V s as → (Along next P s as ↔ Along next Q s as) := by
  induction as with
  | nil => exact fun _ _ => Iff.rfl
  | cons a as ih =>
    rintro s hI ⟨hV, hVs⟩
    constructor
    · rintro ⟨hP, hPs⟩
      have hQ := (hiff hI hV).mp hP
      exact ⟨hQ, (ih (hnext hI hV hQ) hVs).mp hPs⟩
    · rintro ⟨hQ, hQs⟩
      exact ⟨(hiff hI hV).mpr hQ, (ih (hnext hI hV hQ) hVs).mpr hQs⟩

/-- The answers to a sequence of calls, and the state behind it. -/
def answers {β : Type w} (step : σ → α → β × σ) : σ → List α → List β × σ
  | s, [] => ([], s)
  | s, a :: as =>
    let r := answers step (step s a).2 as
    ((step s a).1 :: r.1, r.2)

/-- **Refinement rule**: when related states give every call of a kind the same answer and stay
related, sequences of such calls have the same answers. -/
theorem answers_refine {β : Type w} {τ : Type x} {step : σ → α → β × σ} {step' : τ → α → β × τ}
    {R : σ → τ → Prop} {Q : α → Prop}
    (hstep : ∀ {s : σ} {t : τ} {a : α}, R s t → Q a →
      (step s a).1 = (step' t a).1 ∧ R (step s a).2 (step' t a).2)
    {as : List α} (hall : ∀ a ∈ as, Q a) :
    ∀ {s : σ} {t : τ}, R s t → (answers step s as).1 = (answers step' t as).1 ∧
      R (answers step s as).2 (answers step' t as).2 := by
  induction as with
  | nil => exact fun h => ⟨rfl, h⟩
  | cons a as ih =>
    obtain ⟨ha, has⟩ := List.forall_mem_cons.mp hall
    intro s t h
    obtain ⟨hanswer, hnext⟩ := hstep h ha
    obtain ⟨hrest, hend⟩ := ih has hnext
    refine ⟨?_, hend⟩
    show _ :: _ = _ :: _
    rw [hanswer, hrest]

end Lib
