import Mathlib.Init

/-!
# Loops with breaks

A C loop is a body `σ → Iter σ` run from its head: the body leaves the loop
(`done`), comes back to the head (`next`), or never comes back (`stuck`: a crash
or a callee that does not return). `iterate` runs it with fuel; `Heads` are the
states in which a run passes the loop head.

Rules: `Heads.invariant` and `iterate_done` for what holds at every head and
behind the loop, `iterate_partial` for both in one pass, `iterate_terminates` for a
measure that falls from head to head,
`iterate_total` for both at once (one `Pass` says what the body does),
`iterate_total_wf` when no number bounds the passes beforehand,
`iterate_diverges` for loops that do not end, `iterate_map` for comparing two loops
through a function of their states, `iterate_congr` for bodies that agree on the
states of a run.
-/

namespace Lib

universe u v

/-- What one pass through a loop body does. -/
inductive Iter (σ : Type u)
  | done (s : σ)
  | next (s : σ)
  | stuck

def Iter.map {σ : Type u} {τ : Type v} (f : σ → τ) : Iter σ → Iter τ
  | .done s => .done (f s)
  | .next s => .next (f s)
  | .stuck => .stuck

/-- Run the loop; `none` when it got stuck or the fuel ran out. -/
def iterate {σ : Type u} (body : σ → Iter σ) : Nat → σ → Option σ
  | 0, _ => none
  | fuel + 1, s =>
    match body s with
    | .done s' => some s'
    | .next s' => iterate body fuel s'
    | .stuck => none

/-- The states in which the loop entered at `s₀` passes its head. -/
inductive Heads {σ : Type u} (body : σ → Iter σ) (s₀ : σ) : σ → Prop
  | entry : Heads body s₀ s₀
  | again {s s' : σ} : Heads body s₀ s → body s = .next s' → Heads body s₀ s'

variable {σ : Type u} {body : σ → Iter σ} {s₀ : σ}

theorem iterate_of_done {s s' : σ} (h : body s = .done s') (fuel : Nat) :
    iterate body (fuel + 1) s = some s' := by
  rw [iterate, h]

theorem iterate_of_next {s s' : σ} (h : body s = .next s') (fuel : Nat) :
    iterate body (fuel + 1) s = iterate body fuel s' := by
  rw [iterate, h]

/-- A loop invariant holds at every head. -/
theorem Heads.invariant {I : σ → Prop} (hentry : I s₀)
    (hnext : ∀ {s s' : σ}, I s → body s = .next s' → I s') {s : σ}
    (h : Heads body s₀ s) : I s := by
  induction h with
  | entry => exact hentry
  | again _ hbody ih => exact hnext ih hbody

/-- Behind the loop holds what the last pass makes of the invariant. -/
theorem iterate_done {I Q : σ → Prop} (hnext : ∀ {s s' : σ}, I s → body s = .next s' → I s')
    (hdone : ∀ {s s' : σ}, I s → body s = .done s' → Q s') :
    ∀ {fuel : Nat} {s s' : σ}, I s → iterate body fuel s = some s' → Q s'
  | 0, _, _, _, h => nomatch h
  | fuel + 1, s, s', hI, h => by
    cases hbody : body s with
    | done s₁ =>
      rw [iterate_of_done hbody] at h
      cases h
      exact hdone hI hbody
    | next s₁ =>
      rw [iterate_of_next hbody] at h
      exact iterate_done hnext hdone (hnext hI hbody) h
    | stuck =>
      rw [iterate, hbody] at h
      cases h

/-- A loop that never gets stuck and whose measure falls from head to head ends. -/
theorem iterate_terminates {I : σ → Prop} (μ : σ → Nat)
    (hstuck : ∀ {s : σ}, I s → body s ≠ .stuck)
    (hnext : ∀ {s s' : σ}, I s → body s = .next s' → I s' ∧ μ s' < μ s) :
    ∀ {fuel : Nat} {s : σ}, I s → μ s < fuel → ∃ s', iterate body fuel s = some s'
  | 0, _, _, h => absurd h (Nat.not_lt_zero _)
  | fuel + 1, s, hI, h => by
    cases hbody : body s with
    | done s₁ => exact ⟨s₁, iterate_of_done hbody fuel⟩
    | next s₁ =>
      obtain ⟨hI₁, hlt⟩ := hnext hI hbody
      rw [iterate_of_next hbody]
      exact iterate_terminates μ hstuck hnext hI₁ (by omega)
    | stuck => exact absurd hbody (hstuck hI)

/-- What one pass of a loop does from the invariant `I`: leave with `Q`, or come
back to the head with `I` and a smaller measure. -/
def Pass (body : σ → Iter σ) (I Q : σ → Prop) (μ : σ → Nat) (s : σ) : Prop :=
  (∃ s', body s = .done s' ∧ Q s') ∨ (∃ s', body s = .next s' ∧ I s' ∧ μ s' < μ s)

/-- **Total correctness**: the loop ends, and behind it `Q` holds. -/
theorem iterate_total {I Q : σ → Prop} {μ : σ → Nat}
    (hpass : ∀ s, I s → Pass body I Q μ s) :
    ∀ {fuel : Nat} {s : σ}, I s → μ s < fuel → ∃ s', iterate body fuel s = some s' ∧ Q s'
  | 0, _, _, h => absurd h (Nat.not_lt_zero _)
  | fuel + 1, s, hI, h => by
    rcases hpass s hI with ⟨s₁, hbody, hQ⟩ | ⟨s₁, hbody, hI₁, hlt⟩
    · exact ⟨s₁, iterate_of_done hbody fuel, hQ⟩
    · rw [iterate_of_next hbody]
      exact iterate_total hpass hI₁ (by omega)

/-- **Total correctness** by a well-founded relation: there is enough fuel, and more of it changes
nothing. -/
theorem iterate_total_wf {I Q : σ → Prop} {r : σ → σ → Prop} (hwf : WellFounded r)
    (hpass : ∀ s, I s →
      (∃ s', body s = .done s' ∧ Q s') ∨ (∃ s', body s = .next s' ∧ I s' ∧ r s' s))
    {s : σ} (hI : I s) :
    ∃ enough s', (∀ fuel, enough ≤ fuel → iterate body fuel s = some s') ∧ Q s' := by
  induction s using hwf.induction with
  | _ s ih =>
    rcases hpass s hI with ⟨s₁, hbody, hQ⟩ | ⟨s₁, hbody, hI₁, hless⟩
    · refine ⟨1, s₁, fun fuel hfuel => ?_, hQ⟩
      obtain ⟨fuel, rfl⟩ := Nat.exists_eq_add_of_le' hfuel
      exact iterate_of_done hbody fuel
    · obtain ⟨enough, s', hrun, hQ⟩ := ih s₁ hless hI₁
      refine ⟨enough + 1, s', fun fuel hfuel => ?_, hQ⟩
      obtain ⟨fuel, rfl⟩ := Nat.exists_eq_add_of_le' (Nat.le_trans (Nat.le_add_left 1 _) hfuel)
      rw [iterate_of_next hbody]
      exact hrun fuel (Nat.le_of_succ_le_succ hfuel)

/-- **Partial correctness**: when every pass leaves with `Q` or comes back with `I`, a loop that
ends does so with `Q`. -/
theorem iterate_partial {I Q : σ → Prop}
    (hstep : ∀ s, I s → (∃ s', body s = .done s' ∧ Q s') ∨ (∃ s', body s = .next s' ∧ I s')) :
    ∀ {fuel : Nat} {s s' : σ}, I s → iterate body fuel s = some s' → Q s'
  | 0, _, _, _, h => nomatch h
  | fuel + 1, s, s', hI, h => by
    rcases hstep s hI with ⟨s₁, hbody, hQ⟩ | ⟨s₁, hbody, hI₁⟩
    · rw [iterate_of_done hbody] at h
      cases h
      exact hQ
    · rw [iterate_of_next hbody] at h
      exact iterate_partial hstep hI₁ h

/-- Whatever the fuel: when the loop ends, `Q` holds. -/
theorem iterate_of_pass {I Q : σ → Prop} {μ : σ → Nat} (hpass : ∀ s, I s → Pass body I Q μ s)
    {fuel : Nat} {s s' : σ} (hI : I s) (h : iterate body fuel s = some s') : Q s' := by
  refine iterate_partial (I := I) (fun s hI => ?_) hI h
  rcases hpass s hI with hdone | ⟨s₁, hnext, hI₁, -⟩
  · exact .inl hdone
  · exact .inr ⟨s₁, hnext, hI₁⟩

/-- The same pass keeps the invariant at every head. -/
theorem Heads.of_pass {I Q : σ → Prop} {μ : σ → Nat} (hpass : ∀ s, I s → Pass body I Q μ s)
    (hentry : I s₀) {s : σ} (h : Heads body s₀ s) : I s := by
  refine h.invariant hentry fun {s s'} hI hbody => ?_
  rcases hpass s hI with ⟨s₁, hdone, -⟩ | ⟨s₁, hnext, hI₁, -⟩
  · rw [hbody] at hdone
    cases hdone
  · rw [hbody] at hnext
    cases hnext
    exact hI₁

/-- A loop that always comes back to its head does not end. -/
theorem iterate_diverges {I : σ → Prop} (hnext : ∀ s, I s → ∃ s', body s = .next s' ∧ I s') :
    ∀ (fuel : Nat) {s : σ}, I s → iterate body fuel s = none
  | 0, _, _ => rfl
  | fuel + 1, s, hI => by
    obtain ⟨s', hbody, hI'⟩ := hnext s hI
    rw [iterate_of_next hbody]
    exact iterate_diverges hnext fuel hI'

/-- Loops whose bodies agree under the invariant run alike. -/
theorem iterate_congr {body' : σ → Iter σ} {I : σ → Prop}
    (hagree : ∀ {s : σ}, I s → body' s = body s)
    (hnext : ∀ {s s' : σ}, I s → body s = .next s' → I s') :
    ∀ (fuel : Nat) {s : σ}, I s → iterate body' fuel s = iterate body fuel s
  | 0, _, _ => rfl
  | fuel + 1, s, hI => by
    rw [iterate, iterate, hagree hI]
    cases hbody : body s with
    | done s₁ => rfl
    | next s₁ => exact iterate_congr hagree hnext fuel (hnext hI hbody)
    | stuck => rfl

/-- Loops whose bodies correspond through `f` run in step. -/
theorem iterate_map {τ : Type v} {body' : τ → Iter τ} {f : τ → σ}
    (h : ∀ s, (body' s).map f = body (f s)) :
    ∀ (fuel : Nat) (s : τ), (iterate body' fuel s).map f = iterate body fuel (f s)
  | 0, _ => rfl
  | fuel + 1, s => by
    have hs := h s
    cases hbody : body' s with
    | done s₁ =>
      rw [hbody] at hs
      rw [iterate_of_done hbody, iterate_of_done hs.symm]
      rfl
    | next s₁ =>
      rw [hbody] at hs
      rw [iterate_of_next hbody, iterate_of_next hs.symm]
      exact iterate_map h fuel s₁
    | stuck =>
      rw [hbody] at hs
      rw [iterate, hbody, iterate, ← hs]
      rfl

end Lib
