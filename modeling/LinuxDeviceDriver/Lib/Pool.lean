import LinuxDeviceDriver.Lib.Transition

/-!
# Thread pools over shared data

A pool is a family of threads, each with its local state `P`, over shared data
`G`. One action lets one thread make one move `move t p g e`, which sees the
thread's own local state and the shared data; `e` is what the outside world
answers (a call that arrives, the result of a callee). A move that is not enabled
is `none`.

`invariant_of_assertions` is the rule the safety proofs use: give every thread an
assertion about its local state and the shared data, show that a thread's own
moves keep its assertion and that nobody's move disturbs the assertion of another
thread. The guard of the run may speak about the whole pool, and what is already
known of reached pools may be used.
-/

namespace Lib

universe u v w x

variable {T : Type u} {P : Type v} {G : Type w} {ε : Type x} [DecidableEq T]

/-- The local states of all threads, and the shared data. -/
structure Pool (T : Type u) (P : Type v) (G : Type w) where
  threads : T → P
  shared : G

/-- Let thread `a.1` make the move that `a.2` asks for. -/
def Pool.step (move : T → P → G → ε → Option (P × G)) (s : Pool T P G) (a : T × ε) :
    Option (Pool T P G) :=
  (move a.1 (s.threads a.1) s.shared a.2).map fun r =>
    { threads := Function.update s.threads a.1 r.1, shared := r.2 }

variable {move : T → P → G → ε → Option (P × G)} {s s' s₀ : Pool T P G}

/-- What a step of the pool is made of. -/
theorem Pool.step_cases {a : T × ε} (h : s.step move a = some s') :
    ∃ p' g', move a.1 (s.threads a.1) s.shared a.2 = some (p', g') ∧
      s' = { threads := Function.update s.threads a.1 p', shared := g' } := by
  obtain ⟨⟨p', g'⟩, hmove, rfl⟩ := Option.map_eq_some_iff.mp h
  exact ⟨p', g', hmove, rfl⟩

/-- A thread whose move is enabled makes a step of the pool. -/
theorem Pool.step_of_move {t : T} {e : ε} {r : P × G}
    (h : move t (s.threads t) s.shared e = some r) : ∃ s', s.step move (t, e) = some s' :=
  ⟨_, congrArg (Option.map _) h⟩

/-- One thread moves, and the others stand still. -/
theorem Pool.run_alone {t : T} {es : List ε} {p' : P} {g' : G} :
    ∀ {s : Pool T P G},
      runFrom (fun (r : P × G) e => move t r.1 r.2 e) (s.threads t, s.shared) es = some (p', g') →
      ∃ s', runFrom (Pool.step move) s (es.map (Prod.mk t)) = some s' ∧ s'.threads t = p' ∧
        s'.shared = g' := by
  induction es with
  | nil =>
    intro s hrun
    cases hrun
    exact ⟨s, rfl, rfl, rfl⟩
  | cons e es ih =>
    intro s hrun
    obtain ⟨⟨p₁, g₁⟩, hmove, hrest⟩ := Option.bind_eq_some_iff.mp hrun
    have hstep : s.step move (t, e) = some ⟨Function.update s.threads t p₁, g₁⟩ :=
      Option.map_eq_some_iff.mpr ⟨(p₁, g₁), hmove, rfl⟩
    obtain ⟨s', hrun', hend⟩ := ih (s := ⟨Function.update s.threads t p₁, g₁⟩) <| by
      simpa only [Function.update_self] using hrest
    exact ⟨s', Option.bind_eq_some_iff.mpr ⟨_, hstep, hrun'⟩, hend⟩

/-- Every thread's assertion holds. -/
def Pool.All (A : T → P → G → Prop) (s : Pool T P G) : Prop :=
  ∀ t, A t (s.threads t) s.shared

/-- One step: the moving thread keeps its own assertion, and disturbs no other. -/
theorem Pool.All.step {A : T → P → G → Prop} {t : T} {e : ε}
    (hown : ∀ {p' g'}, move t (s.threads t) s.shared e = some (p', g') → A t p' g')
    (hother : ∀ {p' g'}, move t (s.threads t) s.shared e = some (p', g') →
      ∀ u, u ≠ t → A u (s.threads u) g')
    (h : s.step move (t, e) = some s') : s'.All A := by
  obtain ⟨p', g', hmove, rfl⟩ := Pool.step_cases h
  intro u
  show A u (Function.update s.threads t p' u) g'
  by_cases hut : u = t
  · subst hut
    rw [Function.update_self]
    exact hown hmove
  · rw [Function.update_of_ne hut]
    exact hother hmove u hut

/-- **Assertions along a run.** -/
theorem Pool.invariant_of_assertions {guard : Pool T P G → T × ε → Prop} {A : T → P → G → Prop}
    (hinit : s₀.All A)
    (hown : ∀ {s : Pool T P G} {t : T} {e : ε} {p' : P} {g' : G},
      Reach (Pool.step move) guard s₀ s → s.All A → guard s (t, e) →
      move t (s.threads t) s.shared e = some (p', g') → A t p' g')
    (hother : ∀ {s : Pool T P G} {t : T} {e : ε} {p' : P} {g' : G},
      Reach (Pool.step move) guard s₀ s → s.All A → guard s (t, e) →
      move t (s.threads t) s.shared e = some (p', g') →
      ∀ u, u ≠ t → A u (s.threads u) g')
    (h : Reach (Pool.step move) guard s₀ s) : s.All A := by
  refine h.invariant_reached hinit ?_
  rintro s s' ⟨t, e⟩ hreach hall hguard hstep
  exact Pool.All.step (fun hmove => hown hreach hall hguard hmove)
    (fun hmove => hother hreach hall hguard hmove) hstep

end Lib
