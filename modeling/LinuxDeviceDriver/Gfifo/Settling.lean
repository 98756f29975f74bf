import LinuxDeviceDriver.Gfifo.WaitQueue
import Mathlib.Algebra.Order.BigOperators.Group.Finset
import Mathlib.Data.Fintype.Card

/-!
# Every gfifo call returns or waits for the other side

`WaitQueue` shows that no wake-up is lost. Here the calls are followed to their end:
finitely many tasks that are left to themselves, with no new calls and no new signals,
come to rest after a bounded number of statements (`work`), in whatever order they
run. At rest the mutex is free, and the tasks still inside the driver are blocking
calls of one side that sleep because of the fill level: readers on an empty FIFO or
writers on a full one, never both.

A task can go around the waiting loop several times, but every round costs a wake-up,
and a call wakes the other queue at most once. So a task that has its wake-up still
before it (`Pc.mayWake`) is charged for the rounds of all tasks, and `Pc.rank` counts
the statements up to the next sleep.
-/

namespace LinuxDeviceDriver.Gfifo.WaitQueue

open Lib

variable {Tid : Type}

/-! ## The work that is left -/

/-- The statements up to and including `wake_up_interruptible`. -/
def Pc.mayWake : Pc → Bool
  | lock _ | addWaitQueue _ | test _ | setInterruptible _ | unlockToSleep _ | schedule _
  | signalPending _ | relock _ | transfer _ | wakeUp _ _ => true
  | _ => false

/-- How many statements a task has before it, at most, until it returns or sleeps. One that
is asleep, or on its way there, has a whole round less than one that has been woken; a pending
signal ends the call. -/
def Pc.rank (signal : Bool) : Pc → TaskState → Nat
  | idle, _ | returned _, _ => 0
  | setRunning _ _, _ | clearUnlock, _ => 1
  | out2 _ _, _ | clearMemset, _ => 2
  | out _ _, _ | clearLock, _ => 3
  | wakeUp _ _, _ => 4
  | transfer _, _ => 5
  | schedule _, .interruptible => 6
  | unlockToSleep _, .interruptible => 7
  | setInterruptible _, _ => 8
  | test _, _ => 9
  | relock _, _ | addWaitQueue _, _ => 10
  | signalPending _, _ => if signal then 3 else 11
  | lock _, _ => 11
  | schedule _, .running => 12
  | unlockToSleep _, .running => 13

/-- Being woken adds one round. -/
theorem Pc.rank_woken (signal : Bool) (p : Pc) (task : TaskState) :
    p.rank signal .running ≤ p.rank signal task + 6 := by
  cases p <;> cases task <;> simp [Pc.rank]

/-- What one of `n` tasks is charged: its own statements, and a round of every task for its
wake-up. -/
def Pc.load (n : Nat) (signal : Bool) (p : Pc) (task : TaskState) : Nat :=
  (if p.mayWake then 6 * n else 0) + p.rank signal task

/-- A statement behind which no wake-up is due that was not due before. -/
theorem Pc.load_lt {n : Nat} {signal : Bool} {p q : Pc} {task task' : TaskState}
    (hwake : q.mayWake = true → p.mayWake = true)
    (hrank : q.rank signal task' < p.rank signal task) :
    q.load n signal task' < p.load n signal task := by
  unfold Pc.load
  by_cases hq : q.mayWake = true
  · rw [if_pos hq, if_pos (hwake hq)]
    omega
  · rw [if_neg hq]
    omega

section Work

variable [Fintype Tid]

def Sys.work (s : Sys Tid) : Nat :=
  ∑ t, (s.pc t).load (Fintype.card Tid) (s.sigPending t) (s.task t)

variable [DecidableEq Tid] {gfifoSize : Nat} {s s' : Sys Tid} {t : Tid} {p q : Pc}

/-- A statement that changes the moving task only. -/
theorem Sys.work_lt_of_move (hpc : s.pc t = p) (hpc' : s'.pc = Function.update s.pc t q)
    (hsignal : s'.sigPending = s.sigPending) (htask : ∀ u, u ≠ t → s'.task u = s.task u)
    (hwake : q.mayWake = true → p.mayWake = true)
    (hrank : q.rank (s.sigPending t) (s'.task t) < p.rank (s.sigPending t) (s.task t)) :
    s'.work < s.work := by
  refine Finset.sum_lt_sum (fun u _ => ?_) ⟨t, Finset.mem_univ t, ?_⟩
  · by_cases hut : u = t
    · subst hut
      rw [hpc', Function.update_self, hpc, hsignal]
      exact (Pc.load_lt hwake hrank).le
    · rw [hpc', Function.update_of_ne hut, htask u hut, hsignal]
  · rw [hpc', Function.update_self, hpc, hsignal]
    exact Pc.load_lt hwake hrank

/-- One task pays for what all others may gain. -/
theorem sum_lt_of_paid {f f' : Tid → Nat} {k : Nat} (hothers : ∀ u, u ≠ t → f' u ≤ f u + k)
    (hself : f' t + Fintype.card Tid * k < f t) : ∑ u, f' u < ∑ u, f u := by
  have hsum : ∑ u ∈ Finset.univ.erase t, f' u ≤ ∑ u ∈ Finset.univ.erase t, (f u + k) :=
    Finset.sum_le_sum fun u hu => hothers u (Finset.ne_of_mem_erase hu)
  rw [Finset.sum_add_distrib, Finset.sum_const_nat fun _ _ => rfl] at hsum
  have hcard : (Finset.univ.erase t).card * k ≤ Fintype.card Tid * k :=
    Nat.mul_le_mul_right k (Finset.card_le_univ _)
  rw [← Finset.add_sum_erase _ f' (Finset.mem_univ t),
    ← Finset.add_sum_erase _ f (Finset.mem_univ t)]
  omega

/-- A wake-up pays for the rounds of all tasks that it may set going. -/
theorem Sys.work_lt_of_wakeUp {c : Call} {ret : Except Errno Nat} (hpc : s.pc t = .wakeUp c ret)
    (woken : Tid → Prop) [DecidablePred woken] :
    Sys.work { s.goto t (.out c ret) with
      task := fun u => if woken u then .running else s.task u } < s.work := by
  refine sum_lt_of_paid (t := t) (k := 6) (fun u hut => ?_) ?_
  · show (Function.update s.pc t _ u).load _ (s.sigPending u)
      (if woken u then .running else s.task u) ≤ _
    rw [Function.update_of_ne hut]
    have hround := (s.pc u).rank_woken (s.sigPending u) (s.task u)
    unfold Pc.load
    by_cases hwoken : woken u
    · rw [if_pos hwoken]
      omega
    · rw [if_neg hwoken]
      omega
  · show (Function.update s.pc t _ t).load _ _ _ + _ < _
    rw [Function.update_self, hpc]
    simp only [Pc.load, Pc.mayWake, Pc.rank, if_true, Bool.false_eq_true, if_false]
    omega

/-- `mutex_lock` only moves its task. -/
theorem Sys.work_acquire (hpc : s.pc t = p) (hstep : s.acquire t q = some s')
    (hwake : q.mayWake = true → p.mayWake = true)
    (hrank : ∀ signal task, q.rank signal task < p.rank signal task) : s'.work < s.work := by
  unfold Sys.acquire at hstep
  split at hstep
  · cases hstep
    exact Sys.work_lt_of_move hpc rfl rfl (fun _ _ => rfl) hwake (hrank _ _)
  · cases hstep

/-- **Every statement does some of the work.** -/
theorem runTask_work (hstep : runTask gfifoSize s t = some s') : s'.work < s.work := by
  cases runTask_ran hstep with
  | lock hpc hacquire | relock hpc hacquire | clearLock hpc hacquire =>
    exact Sys.work_acquire hpc hacquire (by simp [Pc.mayWake]) (by simp [Pc.rank])
  | addWaitQueue hpc | goAway hpc | goToSleep hpc | pass hpc =>
    exact Sys.work_lt_of_move hpc rfl rfl (fun _ _ => rfl) (by simp [Pc.mayWake])
      (by simp [Pc.rank])
  | interrupted hpc hsignal | woken hpc hsignal =>
    exact Sys.work_lt_of_move hpc rfl rfl (fun _ _ => rfl) (by simp [Pc.mayWake])
      (by simp [Pc.rank, hsignal])
  | transferred hpc | faulted hpc | out hpc | out2 hpc | clearMemset hpc | clearUnlock hpc =>
    exact Sys.work_lt_of_move hpc rfl rfl (fun _ _ => rfl) (by simp [Pc.mayWake])
      (by simp [Pc.rank])
  | setInterruptible hpc | setRunning hpc =>
    refine Sys.work_lt_of_move hpc rfl rfl (fun u hut => Function.update_of_ne hut _ _) ?_ ?_
    · simp [Pc.mayWake]
    · simp [Pc.rank]
  | unlockToSleep hpc =>
    refine Sys.work_lt_of_move hpc rfl rfl (fun _ _ => rfl) (by simp [Pc.mayWake]) ?_
    show Pc.rank _ _ (s.task t) < _
    cases s.task t <;> simp [Pc.rank]
  | schedule hpc hready =>
    refine Sys.work_lt_of_move hpc rfl rfl (fun u hut => Function.update_of_ne hut _ _)
      (by simp [Pc.mayWake]) ?_
    -- a task that was not woken has a signal, and no round before it
    rcases hready with hrun | hsignal
    · rw [hrun]
      simp only [Pc.rank]
      split <;> decide
    · rw [hsignal]
      cases s.task t <;> simp [Pc.rank]
  | wakeUp hpc => exact Sys.work_lt_of_wakeUp hpc _

end Work

/-! ## Where the work ends -/

variable [DecidableEq Tid] {gfifoSize : Nat} {s s' : Sys Tid} {t : Tid}

/-- Only blocking calls go to sleep. -/
def Pc.Blocking : Pc → Prop
  | setInterruptible c | unlockToSleep c | schedule c | signalPending c | relock c =>
    c.nonblock = false
  | _ => True

omit [DecidableEq Tid] in
theorem blocking_update [DecidableEq Tid] {p : Pc} {pc : Tid → Pc} (h : ∀ u, (pc u).Blocking)
    (hp : p.Blocking) : ∀ u, (Function.update pc t p u).Blocking :=
  (Function.forall_update_iff pc fun _ q => q.Blocking).mpr ⟨hp, fun u _ => h u⟩

theorem runTask_blocking (h : ∀ u, (s.pc u).Blocking) (hstep : runTask gfifoSize s t = some s') :
    ∀ u, (s'.pc u).Blocking := by
  have hown := h t
  have hacquire : ∀ p : Pc, p.Blocking → s.acquire t p = some s' → ∀ u, (s'.pc u).Blocking := by
    intro p hp hlock
    unfold Sys.acquire at hlock
    split at hlock
    · cases hlock
      exact blocking_update h hp
    · cases hlock
  cases runTask_ran hstep with
  | lock _ hlock | relock _ hlock | clearLock _ hlock => exact hacquire _ (by trivial) hlock
  | goToSleep hpc _ hnonblock => exact blocking_update h (Bool.eq_false_iff.mpr hnonblock)
  | setInterruptible hpc | unlockToSleep hpc | schedule hpc | woken hpc =>
    rw [hpc] at hown
    exact blocking_update h hown
  | addWaitQueue | goAway | pass | interrupted | transferred => exact blocking_update h trivial
  | faulted | wakeUp | out | out2 | setRunning => exact blocking_update h trivial
  | clearMemset | clearUnlock => exact blocking_update h trivial

theorem step_blocking (h : ∀ u, (s.pc u).Blocking) {a : Action Tid}
    (hstep : step gfifoSize s a = some s') : ∀ u, (s'.pc u).Blocking := by
  cases a with
  | call t c | memClear t =>
    simp only [step, Sys.enter] at hstep
    split at hstep <;> cases hstep <;> exact blocking_update h trivial
  | run t => exact runTask_blocking h hstep
  | signal t =>
    cases hstep
    exact h

theorem reach_blocking (h : Reach (step gfifoSize) anyStep .fresh s) :
    ∀ u, (s.pc u).Blocking :=
  h.invariant (I := fun s => ∀ u, (s.pc u).Blocking) (fun _ => trivial)
    fun hblocking _ hstep => step_blocking hblocking hstep

/-- Not inside the driver. -/
def Pc.Outside (p : Pc) : Prop := p = .idle ∨ ∃ ret, p = .returned ret

/-- Nothing goes on: the mutex is free, and all tasks that are still inside the driver are
blocking calls of one side, asleep because of the fill level, without a signal. -/
structure AtRest (gfifoSize : Nat) (s : Sys Tid) : Prop where
  free : s.mutex = none
  waiting : ∃ sd : Side, ∀ t, (s.pc t).Outside ∨
    (∃ c, s.pc t = .schedule c ∧ c.side = sd ∧ c.nonblock = false) ∧
      s.task t = .interruptible ∧ s.sigPending t = false ∧ sd.blocked gfifoSize s.dev = true

/-- A task that cannot go on is outside, asleep, or waits for the mutex. -/
theorem stuck_cases (hstuck : runTask gfifoSize s t = none) :
    (s.pc t).Outside ∨
      (∃ c, s.pc t = .schedule c ∧ s.task t = .interruptible ∧ s.sigPending t = false) ∨
      ((s.pc t).holds = false ∧ ∃ o, s.mutex = some o) := by
  have hlock : ∀ p, s.acquire t p = none → ∃ o, s.mutex = some o := by
    intro p hp
    unfold Sys.acquire at hp
    split at hp
    · cases hp
    · next o howner => exact ⟨o, howner⟩
  unfold runTask at hstuck
  cases hpc : s.pc t with
  | idle => exact .inl (.inl rfl)
  | returned ret => exact .inl (.inr ⟨ret, rfl⟩)
  | lock c | relock c | clearLock =>
    simp only [hpc] at hstuck
    exact .inr (.inr ⟨rfl, hlock _ hstuck⟩)
  | schedule c =>
    simp only [hpc] at hstuck
    split at hstuck
    · cases hstuck
    · next hasleep =>
      rw [not_or] at hasleep
      refine .inr (.inl ⟨c, rfl, ?_, Bool.eq_false_iff.mpr hasleep.2⟩)
      cases htask : s.task t with
      | running => exact absurd htask hasleep.1
      | interruptible => rfl
  | test c =>
    simp only [hpc] at hstuck
    split at hstuck
    · split at hstuck <;> cases hstuck
    · cases hstuck
  | signalPending c =>
    simp only [hpc] at hstuck
    split at hstuck <;> cases hstuck
  | transfer c =>
    simp only [hpc] at hstuck
    split at hstuck <;> cases hstuck
  | addWaitQueue c | setInterruptible c | unlockToSleep c | wakeUp c ret | out c ret
  | out2 c ret | setRunning c ret | clearMemset | clearUnlock =>
    simp only [hpc] at hstuck
    cases hstuck

/-- **No deadlock**: a state in which no task can go on is a state at rest. -/
theorem atRest_of_stuck (hsize : 0 < gfifoSize) (hinv : Inv gfifoSize s)
    (hblocking : ∀ u, (s.pc u).Blocking) (hstuck : ∀ t, runTask gfifoSize s t = none) :
    AtRest gfifoSize s := by
  -- the owner of the mutex could go on
  have hfree : s.mutex = none := by
    cases howner : s.mutex with
    | none => rfl
    | some o =>
      have hholds := (hinv.mutex o).mp howner
      rcases stuck_cases (hstuck o) with (hpc | ⟨ret, hpc⟩) | ⟨c, hpc, -⟩ | ⟨hout, -⟩
      · rw [hpc] at hholds
        cases hholds
      · rw [hpc] at hholds
        cases hholds
      · rw [hpc] at hholds
        cases hholds
      · rw [hout] at hholds
        cases hholds
  have hcases : ∀ t, (s.pc t).Outside ∨
      ∃ c, s.pc t = .schedule c ∧ s.task t = .interruptible ∧ s.sigPending t = false := by
    intro t
    rcases stuck_cases (hstuck t) with hout | hasleep | ⟨-, o, howner⟩
    · exact .inl hout
    · exact .inr hasleep
    · rw [hfree] at howner
      cases howner
  have hblocked : ∀ {t c}, s.pc t = .schedule c → s.task t = .interruptible →
      c.side.blocked gfifoSize s.dev = true := by
    intro t c hpc htask
    obtain ⟨c', hpc' | hpc', hwhy⟩ := hinv.asleep t htask
    · rw [hpc] at hpc'
      cases hpc'
    · rw [hpc] at hpc'
      cases hpc'
      refine hwhy.resolve_right ?_
      rintro ⟨o, c', ret, hpc', -⟩
      have hout := hinv.mutex.outside hfree o
      rw [hpc'] at hout
      cases hout
  refine ⟨hfree, ?_⟩
  -- a FIFO that is empty is not full, so the sleepers are all of the side that is blocked
  refine ⟨if s.dev.curLen = 0 then .reader else .writer, fun t => (hcases t).imp_right ?_⟩
  rintro ⟨c, hpc, htask, hsignal⟩
  have hside := hblocked hpc htask
  have hcall := hblocking t
  rw [hpc] at hcall
  have hsd : c.side = if s.dev.curLen = 0 then .reader else .writer := by
    cases hc : c.side with
    | reader =>
      rw [hc] at hside
      rw [if_pos (beq_iff_eq.mp hside)]
    | writer =>
      rw [hc] at hside
      have hfull : s.dev.curLen = gfifoSize := beq_iff_eq.mp hside
      rw [if_neg (by omega)]
  exact ⟨⟨c, hpc, hsd, hcall⟩, htask, hsignal, hsd ▸ hside⟩

/-- **Settling**: from every reachable state, tasks that are left to themselves run for a
bounded number of statements, in every order; they can always come to rest, and when none of
them can go on they are at rest. -/
theorem gfifo_settles [Fintype Tid] (hsize : 0 < gfifoSize)
    (h : Reach (step gfifoSize) anyStep .fresh s) :
    (∀ {order : List Tid} {s' : Sys Tid}, runFrom (runTask gfifoSize) s order = some s' →
      order.length ≤ s.work ∧
      ((∀ t, runTask gfifoSize s' t = none) → AtRest gfifoSize s')) ∧
    ∃ order s', runFrom (runTask gfifoSize) s order = some s' ∧ AtRest gfifoSize s' := by
  have hreach : ∀ {order : List Tid} {s' : Sys Tid},
      runFrom (runTask gfifoSize) s order = some s' → Reach (step gfifoSize) anyStep .fresh s' := by
    intro order s' hrun
    refine h.trans ((reach_runFrom hrun).invariant .init ?_)
    intro s₁ s₂ t hs₁ _ hstep
    exact hs₁.tail (a := .run t) trivial hstep
  have hrest : ∀ {order : List Tid} {s' : Sys Tid},
      runFrom (runTask gfifoSize) s order = some s' → (∀ t, runTask gfifoSize s' t = none) →
      AtRest gfifoSize s' := by
    intro order s' hrun hstuck
    exact atRest_of_stuck hsize (reach_inv (hreach hrun)) (reach_blocking (hreach hrun)) hstuck
  refine ⟨fun hrun => ⟨?_, hrest hrun⟩, ?_⟩
  · have hlength := length_le_of_falling (fun hstep => runTask_work hstep) hrun
    omega
  · obtain ⟨order, s', hrun, hstuck⟩ := exists_stuck (fun hstep => runTask_work hstep) s
    exact ⟨order, s', hrun, hrest hrun hstuck⟩

/-- A reader that sleeps on an empty FIFO is at rest with it, until somebody writes. -/
theorem gfifo_settles_reader_asleep :
    ∃ s, runFrom (step 4) .fresh readerFallsAsleep = some s ∧ AtRest 4 s ∧
      ∃ order s', runFrom (runTask 4) s order = some s' ∧ AtRest 4 s' := by
  obtain ⟨s, hrun, hstuck⟩ : ∃ s, runFrom (step 4) .fresh readerFallsAsleep = some s ∧
      ∀ t, runTask 4 s t = none := ⟨_, rfl, fun t => by cases t <;> rfl⟩
  have hsettles := gfifo_settles (by decide) (reach_runFrom hrun)
  have hhere : runFrom (runTask 4) s [] = some s := rfl
  exact ⟨s, hrun, (hsettles.1 hhere).2 hstuck, hsettles.2⟩

end LinuxDeviceDriver.Gfifo.WaitQueue
