import LinuxDeviceDriver.Gfifo.WaitQueue

/-!
# Every interleaving is a sequence of stays

`WaitQueue` runs the tasks statement by statement; `Contract` runs whole stays
inside the mutex, one after the other. Here the first is shown to refine the
second: every interleaving of readers and writers leaves the device as some
sequence of stays does, so the FIFO contract holds of it.

A stay takes effect in one statement. It is the test of the waiting loop when the
test sends the task to sleep or away with `-EAGAIN`, the transfer when the test
lets it pass, and the look at the pending signals when it ends a sleep. All other
statements only move the task; the coarser system stands still.

`MEM_CLEAR` overwrites queued bytes and is not part of the contract.
-/

namespace LinuxDeviceDriver.Gfifo.WaitQueue

open Lib

variable {Tid : Type} [DecidableEq Tid] {gfifoSize : Nat}

/-- What the coarser system knows of a task that stands at a statement: the call it
sleeps in, from the test that found it blocked to the next one. -/
def Pc.SleepsIn : Pc → Option Call → Prop
  | setInterruptible c, a | unlockToSleep c, a | schedule c, a | signalPending c, a
  | relock c, a => a = some c
  | test c, a | transfer c, a => a = none ∨ a = some c
  | clearLock, _ | clearMemset, _ | clearUnlock, _ => False
  | _, a => a = none

/-- The same device, and the same sleepers. -/
structure Explains (s : Sys Tid) (f : Fifo Tid) : Prop where
  dev : f.dev = s.dev
  asleep : ∀ t, (s.pc t).SleepsIn (f.asleep t)

/-- Readers and writers only. -/
def NoClear (_s : Sys Tid) (a : Action Tid) : Prop := ∀ t, a ≠ .memClear t

section Refinement

variable {s s' : Sys Tid} {f : Fifo Tid} {t : Tid} {p : Pc} {c : Call}

/-- A statement that only moves its task. -/
theorem Explains.move (h : Explains s f) (hdev : s'.dev = s.dev)
    (hpc : s'.pc = Function.update s.pc t p) (hp : p.SleepsIn (f.asleep t)) :
    Explains s' f := by
  refine ⟨h.dev.trans hdev.symm, fun u => ?_⟩
  rw [hpc]
  by_cases hut : u = t
  · subst hut
    rwa [Function.update_self]
  · rw [Function.update_of_ne hut]
    exact h.asleep u

/-- A statement in which a stay takes effect. -/
theorem Explains.update (h : Explains s f) {f' : Fifo Tid} {a : Option Call}
    (hdev : f'.dev = s'.dev) (hpc : s'.pc = Function.update s.pc t p)
    (hasleep : f'.asleep = Function.update f.asleep t a) (hp : p.SleepsIn a) :
    Explains s' f' := by
  refine ⟨hdev, fun u => ?_⟩
  rw [hpc, hasleep]
  by_cases hut : u = t
  · subst hut
    rwa [Function.update_self, Function.update_self]
  · rw [Function.update_of_ne hut, Function.update_of_ne hut]
    exact h.asleep u

/-- A task that enters, or comes back from its sleep, makes one stay. -/
theorem stay_event (gfifoSize : Nat) (ht : f.asleep t = none ∨ f.asleep t = some c) :
    ∃ e, Gfifo.step gfifoSize f e = some (f.runStay gfifoSize t c).2 := by
  rcases ht with hnone | hsome
  · exact ⟨.enter t c, by simp only [Gfifo.step, serve, hnone, Option.map_some]⟩
  · refine ⟨.wake t false, ?_⟩
    simp only [Gfifo.step, serve, hsome, Bool.false_eq_true, if_false, Option.map_some]

/-- The test sends the task away or to sleep. -/
theorem stay_of_blocked {dev : GfifoDev} (h : c.side.blocked gfifoSize dev = true) :
    (c.nonblock = true → c.stay gfifoSize dev = (.leave (.error .eagain) [], dev)) ∧
    (¬ c.nonblock = true → c.stay gfifoSize dev = (.sleep, dev)) := by
  cases c with
  | read req =>
    have hempty : dev.curLen = 0 := beq_iff_eq.mp h
    simp only [Call.stay, gfifoRead, gfifoReadWith, if_pos hempty]
    exact ⟨fun hnonblock => if_pos hnonblock, fun hnonblock => if_neg hnonblock⟩
  | write buf req =>
    have hfull : dev.curLen = gfifoSize := beq_iff_eq.mp h
    simp only [Call.stay, gfifoWrite, if_pos hfull]
    exact ⟨fun hnonblock => if_pos hnonblock, fun hnonblock => if_neg hnonblock⟩

/-- The test lets the task pass. -/
theorem stay_of_passed {dev : GfifoDev} (h : c.side.blocked gfifoSize dev = false) :
    ∃ out, c.stay gfifoSize dev =
      (.leave (c.body gfifoSize dev).1 out, (c.body gfifoSize dev).2) := by
  cases c with
  | read req =>
    have hempty : ¬ dev.curLen = 0 := beq_eq_false_iff_ne.mp h
    refine ⟨(gfifoReadBody dev req).2.1, ?_⟩
    simp only [Call.stay, gfifoRead, gfifoReadWith, if_neg hempty, Call.body, gfifoReadBody]
  | write buf req =>
    have hfull : ¬ dev.curLen = gfifoSize := beq_eq_false_iff_ne.mp h
    refine ⟨[], ?_⟩
    simp only [Call.stay, gfifoWrite, if_neg hfull, Call.body]

/-- **A stay takes effect**: the coarser system serves it. -/
theorem Explains.stay (h : Explains s f) (ht : f.asleep t = none ∨ f.asleep t = some c)
    {stay : Stay} {dev : GfifoDev} (hstay : c.stay gfifoSize s.dev = (stay, dev))
    (hdev : s'.dev = dev) (hpc : s'.pc = Function.update s.pc t p)
    (hp : p.SleepsIn (match stay with | .sleep => some c | .leave _ _ => none)) :
    ∃ e f', Gfifo.step gfifoSize f e = some f' ∧ Explains s' f' := by
  obtain ⟨e, he⟩ := stay_event gfifoSize ht
  refine ⟨e, _, he, h.update ?_ hpc ?_ hp⟩
  · simp only [Fifo.runStay, h.dev, hstay, Fifo.record_dev, hdev]
  · simp only [Fifo.runStay, h.dev, hstay, Fifo.record_asleep]
    cases stay <;> rfl

/-- A signal ends the sleep; the device is not touched. -/
theorem Explains.signal (h : Explains s f) (ht : f.asleep t = some c) (hdev : s'.dev = s.dev)
    (hpc : s'.pc = Function.update s.pc t p) (hp : p.SleepsIn none) :
    ∃ e f', Gfifo.step gfifoSize f e = some f' ∧ Explains s' f' := by
  refine ⟨.wake t true, { f with asleep := Function.update f.asleep t none }, ?_, ?_⟩
  · simp only [Gfifo.step, serve, ht, if_true, Option.map_some]
  · exact h.update (h.dev.trans hdev.symm) hpc rfl hp

theorem Explains.acquire (h : Explains s f) (hstep : s.acquire t p = some s')
    (hp : p.SleepsIn (f.asleep t)) : Explains s' f := by
  unfold Sys.acquire at hstep
  split at hstep
  · cases hstep
    exact h.move rfl rfl hp
  · cases hstep

theorem Explains.enter (h : Explains s f) (hstep : s.enter t p = some s')
    (hp : p.SleepsIn none) : Explains s' f := by
  have hsleeps := h.asleep t
  unfold Sys.enter at hstep
  split at hstep
  case h_1 hpc | h_2 hpc =>
    rw [hpc] at hsleeps
    cases hstep
    refine h.move rfl rfl ?_
    rwa [show f.asleep t = none from hsleeps]
  case h_3 => cases hstep

/-- **Simulation step** of a task: its statement is explained by a stay or by nothing. -/
theorem runTask_explains (hinv : Inv gfifoSize s) (h : Explains s f)
    (hstep : runTask gfifoSize s t = some s') :
    Explains s' f ∨ ∃ e f', Gfifo.step gfifoSize f e = some f' ∧ Explains s' f' := by
  have hsleeps := h.asleep t
  cases runTask_ran hstep with
  | clearLock hpc | clearMemset hpc | clearUnlock hpc => simp [hpc, Pc.SleepsIn] at hsleeps
  | lock hpc hacquire =>
    rw [hpc] at hsleeps
    exact Or.inl (h.acquire hacquire hsleeps)
  | relock hpc hacquire =>
    rw [hpc] at hsleeps
    exact Or.inl (h.acquire hacquire (Or.inr hsleeps))
  | goAway hpc hblocked hnonblock =>
    rw [hpc] at hsleeps
    exact Or.inr (h.stay hsleeps ((stay_of_blocked hblocked).1 hnonblock) rfl rfl rfl)
  | goToSleep hpc hblocked hnonblock =>
    rw [hpc] at hsleeps
    exact Or.inr (h.stay hsleeps ((stay_of_blocked hblocked).2 hnonblock) rfl rfl rfl)
  | transferred hpc | faulted hpc =>
    have htested := hinv.tested t
    rw [hpc] at hsleeps htested
    obtain ⟨out, hstay⟩ := stay_of_passed htested
    exact Or.inr (h.stay hsleeps hstay rfl rfl rfl)
  | interrupted hpc =>
    rw [hpc] at hsleeps
    exact Or.inr (h.signal hsleeps rfl rfl rfl)
  | addWaitQueue hpc =>
    rw [hpc] at hsleeps
    exact Or.inl (h.move rfl rfl (Or.inl hsleeps))
  | pass hpc | setInterruptible hpc | unlockToSleep hpc | schedule hpc | woken hpc =>
    rw [hpc] at hsleeps
    exact Or.inl (h.move rfl rfl hsleeps)
  | wakeUp hpc | out hpc | out2 hpc | setRunning hpc =>
    rw [hpc] at hsleeps
    exact Or.inl (h.move rfl rfl hsleeps)

theorem step_explains {a : Action Tid} (hinv : Inv gfifoSize s) (h : Explains s f)
    (hguard : NoClear s a) (hstep : step gfifoSize s a = some s') :
    Explains s' f ∨ ∃ e f', Gfifo.step gfifoSize f e = some f' ∧ Explains s' f' := by
  cases a with
  | call t c => exact Or.inl (h.enter hstep rfl)
  | memClear t => exact absurd rfl (hguard t)
  | run t => exact runTask_explains hinv h hstep
  | signal t =>
    cases hstep
    exact Or.inl ⟨h.dev, h.asleep⟩

/-- **Interleavings refine sequences of stays**: the device of every reachable state is
that of a reachable sequence of stays, which holds a bounded queue with the ledger of
everything written and read. -/
theorem interleaving_represents (h : Reach (step gfifoSize) NoClear .fresh s) :
    ∃ f : Fifo Tid, Reach (Gfifo.step gfifoSize) anyStep .fresh f ∧ f.dev = s.dev ∧
      ∃ l : Ledger Byte gfifoSize, Represents f l := by
  have hfresh : Explains (.fresh : Sys Tid) (.fresh : Fifo Tid) := ⟨rfl, fun _ => rfl⟩
  obtain ⟨f, hf, hexplains⟩ := h.simulated hfresh
    fun hreach hexplains hguard hstep =>
      step_explains (reach_inv (hreach.mono fun _ _ _ => trivial)) hexplains hguard hstep
  exact ⟨f, hf, hexplains.dev, reach_represents hf⟩

end Refinement

/-! ## Memory safety -/

/-- The fill level fits the array, and the memory behind it is as `kzalloc` left it. -/
structure InBounds (gfifoSize : Nat) (dev : GfifoDev) : Prop where
  curLen : dev.curLen ≤ gfifoSize
  untouched : ∀ x, gfifoSize ≤ x → dev.mem x = 0

section InBounds

variable {s s' : Sys Tid} {t : Tid} {dev : GfifoDev}

theorem InBounds.body (h : InBounds gfifoSize dev) (c : Call) :
    InBounds gfifoSize (c.body gfifoSize dev).2 := by
  cases c with
  | read req =>
    constructor
    · rcases gfifoReadBody_spec dev req with ⟨out, hbody⟩ | ⟨n, dev', hbody, hdone⟩
      · simp only [Call.body, hbody]
        exact h.curLen
      · simp only [Call.body, hbody, hdone.curLen]
        exact (Nat.sub_le _ _).trans h.curLen
    · intro x hx
      exact (gfifoReadBody_in_bounds h.curLen req hx).trans (h.untouched x hx)
  | write buf req =>
    constructor
    · have hlen := h.curLen
      rcases gfifoWriteBody_spec gfifoSize dev buf req with
        ⟨dev', hbody, hkeep⟩ | ⟨n, dev', hbody, hdone⟩
      · simp only [Call.body, hbody, hkeep.curLen]
        exact hlen
      · simp only [Call.body, hbody, hdone.curLen, hdone.count]
        omega
    · intro x hx
      exact (gfifoWriteBody_in_bounds h.curLen buf req hx).trans (h.untouched x hx)

theorem InBounds.memClear (h : InBounds gfifoSize dev) :
    InBounds gfifoSize (gfifoMemClear gfifoSize dev) := by
  refine ⟨h.curLen, fun x hx => ?_⟩
  show blit dev.mem id (fun _ => 0) gfifoSize x = 0
  rw [blit_frame _ _ _ fun i hi => by simp only [id]; omega]
  exact h.untouched x hx

/-- The device changes in a transfer and in `MEM_CLEAR` only. -/
theorem runTask_inBounds (h : InBounds gfifoSize s.dev) (hstep : runTask gfifoSize s t = some s') :
    InBounds gfifoSize s'.dev := by
  have hacquire : ∀ p, s.acquire t p = some s' → InBounds gfifoSize s'.dev := by
    intro p hp
    unfold Sys.acquire at hp
    split at hp
    · cases hp
      exact h
    · cases hp
  cases runTask_ran hstep with
  | lock _ hlock | relock _ hlock | clearLock _ hlock => exact hacquire _ hlock
  | @transferred c | @faulted c => exact h.body c
  | clearMemset => exact h.memClear
  | addWaitQueue | goAway | goToSleep | pass | setInterruptible | unlockToSleep => exact h
  | schedule | interrupted | woken | wakeUp | out | out2 | setRunning | clearUnlock => exact h

/-- **No interleaving** of readers, writers and `MEM_CLEAR` callers changes the memory
behind the array. -/
theorem reach_inBounds (h : Reach (step gfifoSize) anyStep .fresh s) :
    InBounds gfifoSize s.dev := by
  refine h.invariant (I := fun s => InBounds gfifoSize s.dev) ⟨Nat.zero_le _, fun _ _ => rfl⟩ ?_
  intro s s' a hbounds _ hstep
  cases a with
  | call t c | memClear t =>
    simp only [step, Sys.enter] at hstep
    split at hstep <;> cases hstep <;> exact hbounds
  | run t => exact runTask_inBounds hbounds hstep
  | signal t =>
    cases hstep
    exact hbounds

end InBounds

end LinuxDeviceDriver.Gfifo.WaitQueue
