import LinuxDeviceDriver.Gfifo.Contract
import LinuxDeviceDriver.Lib.Mutex

/-!
# Sleeping and waking in gfifo

The same calls as in `Contract`, now statement by statement: any number of tasks
run `gfifo_read`, `gfifo_write` and `gfifo_ioctl(MEM_CLEAR)` interleaved, one
action per statement that touches shared state. `gfifo_read` and `gfifo_write`
are one program with a `Side`: they differ in the wait queue they sleep on, the
fill level that blocks them and the queue they wake.

The danger is a lost wake-up: a task that goes to sleep although the FIFO already
holds what it waits for. What rules it out is that a task tests the fill level
and marks itself `TASK_INTERRUPTIBLE` under the mutex, and that whoever changes
the fill level wakes the other queue before it lets the mutex go. `Inv.asleep`
says this with its intermediate states: a sleeper is blocked by the fill level,
or the task inside the mutex stands right before waking the sleeper's queue.

`Ran` lists the ways through a statement (`runTask_ran`); what is proved about every statement
goes over its cases. `Quiet` is what other components need to know about an action that
wakes nobody (`step_quiet`).
-/

namespace LinuxDeviceDriver.Gfifo

open Lib

namespace WaitQueue

/-- Which wait queue a task uses: `r_wait` or `w_wait`. -/
inductive Side
  | reader
  | writer
deriving DecidableEq, Repr

def Side.other : Side → Side
  | reader => writer
  | writer => reader

end WaitQueue

open WaitQueue

def Call.side : Call → Side
  | .read _ => .reader
  | .write _ _ => .writer

/-- `filp->f_flags & O_NONBLOCK`. -/
def Call.nonblock : Call → Bool
  | .read req => req.nonblock
  | .write _ req => req.nonblock

/-- The code behind the waiting loop. -/
def Call.body (gfifoSize : Nat) (dev : GfifoDev) : Call → Except Errno Nat × GfifoDev
  | .read req => ((gfifoReadBody dev req).1, (gfifoReadBody dev req).2.2)
  | .write buf req => gfifoWriteBody gfifoSize dev buf req

namespace WaitQueue

/-- The condition of the waiting loop. -/
def Side.blocked (gfifoSize : Nat) (dev : GfifoDev) : Side → Bool
  | reader => dev.curLen == 0
  | writer => dev.curLen == gfifoSize

inductive TaskState
  | running
  | interruptible
deriving DecidableEq, Repr

/-- Where a task stands; the statement named is the next one it executes. -/
inductive Pc
  | idle
  -- gfifo_read, gfifo_write
  | lock (c : Call)
  | addWaitQueue (c : Call)
  | test (c : Call)
  | setInterruptible (c : Call)
  | unlockToSleep (c : Call)
  | schedule (c : Call)
  | signalPending (c : Call)
  | relock (c : Call)
  | transfer (c : Call)
  | wakeUp (c : Call) (ret : Except Errno Nat)
  | out (c : Call) (ret : Except Errno Nat)
  | out2 (c : Call) (ret : Except Errno Nat)
  | setRunning (c : Call) (ret : Except Errno Nat)
  | returned (ret : Except Errno Nat)
  -- gfifo_ioctl(MEM_CLEAR)
  | clearLock
  | clearMemset
  | clearUnlock

/-- The statements executed with the mutex held. -/
def Pc.holds : Pc → Bool
  | addWaitQueue _ | test _ | setInterruptible _ | unlockToSleep _ | transfer _
  | wakeUp _ _ | out _ _ | clearMemset | clearUnlock => true
  | _ => false

/-- The wait queue the task's entry is linked into. -/
def Pc.queue : Pc → Option Side
  | test c | setInterruptible c | unlockToSleep c | schedule c | signalPending c
  | relock c | transfer c | wakeUp c _ | out c _ | out2 c _ => some c.side
  | _ => none

variable {Tid : Type} [DecidableEq Tid]

/-- The device with its mutex and wait queues, and the tasks using it. -/
structure Sys (Tid : Type) where
  dev : GfifoDev
  mutex : Option Tid
  wait : Side → List Tid
  pc : Tid → Pc
  task : Tid → TaskState
  sigPending : Tid → Bool

def Sys.fresh : Sys Tid where
  dev := .fresh
  mutex := none
  wait := fun _ => []
  pc := fun _ => .idle
  task := fun _ => .running
  sigPending := fun _ => false

inductive Action (Tid : Type)
  | call (t : Tid) (c : Call)
  | memClear (t : Tid)
  | run (t : Tid)
  | signal (t : Tid)

def Sys.goto (s : Sys Tid) (t : Tid) (p : Pc) : Sys Tid :=
  { s with pc := Function.update s.pc t p }

/-- `mutex_lock`: enabled when the mutex is free. -/
def Sys.acquire (s : Sys Tid) (t : Tid) (p : Pc) : Option (Sys Tid) :=
  match s.mutex with
  | none => some { s.goto t p with mutex := some t }
  | some _ => none

/-- A task outside the driver enters it; signals were handled in user mode. -/
def Sys.enter (s : Sys Tid) (t : Tid) (p : Pc) : Option (Sys Tid) :=
  match s.pc t with
  | .idle | .returned _ =>
    some { s.goto t p with sigPending := Function.update s.sigPending t false }
  | _ => none

/-- The next statement of task `t`. -/
def runTask (gfifoSize : Nat) (s : Sys Tid) (t : Tid) : Option (Sys Tid) :=
  match s.pc t with
  | .idle | .returned _ => none
  | .lock c => s.acquire t (.addWaitQueue c)
  | .addWaitQueue c =>
    some { s.goto t (.test c) with
      wait := Function.update s.wait c.side (t :: s.wait c.side) }
  | .test c =>
    if c.side.blocked gfifoSize s.dev then
      if c.nonblock then some (s.goto t (.out c (.error .eagain)))
      else some (s.goto t (.setInterruptible c))
    else some (s.goto t (.transfer c))
  | .setInterruptible c =>
    some { s.goto t (.unlockToSleep c) with
      task := Function.update s.task t .interruptible }
  | .unlockToSleep c => some { s.goto t (.schedule c) with mutex := none }
  | .schedule c =>
    -- the scheduler runs the task again once it is runnable, and does not let it sleep at all
    -- while a signal is pending
    if s.task t = .running ∨ s.sigPending t then
      some { s.goto t (.signalPending c) with task := Function.update s.task t .running }
    else none
  | .signalPending c =>
    if s.sigPending t then some (s.goto t (.out2 c (.error .erestartsys)))
    else some (s.goto t (.relock c))
  | .relock c => s.acquire t (.test c)
  | .transfer c =>
    let (ret, dev) := c.body gfifoSize s.dev
    match ret with
    | .ok _ => some { s.goto t (.wakeUp c ret) with dev := dev }
    | .error _ => some { s.goto t (.out c ret) with dev := dev }
  | .wakeUp c ret =>
    some { s.goto t (.out c ret) with
      task := fun u => if u ∈ s.wait c.side.other then .running else s.task u }
  | .out c ret => some { s.goto t (.out2 c ret) with mutex := none }
  | .out2 c ret =>
    some { s.goto t (.setRunning c ret) with
      wait := Function.update s.wait c.side ((s.wait c.side).filter (· ≠ t)) }
  | .setRunning _ ret =>
    some { s.goto t (.returned ret) with task := Function.update s.task t .running }
  | .clearLock => s.acquire t .clearMemset
  | .clearMemset => some { s.goto t .clearUnlock with dev := gfifoMemClear gfifoSize s.dev }
  | .clearUnlock => some { s.goto t (.returned (.ok 0)) with mutex := none }

/-- The task an action is about. -/
def Action.task : Action Tid → Tid
  | call t _ | memClear t | run t | signal t => t

/-- The queue that is woken by the action. -/
def waking (s : Sys Tid) : Action Tid → Option Side
  | .run t =>
    match s.pc t with
    | .wakeUp c _ => some c.side.other
    | _ => none
  | _ => none

/-- One action of the system. A signal makes a sleeping task runnable. -/
def step (gfifoSize : Nat) (s : Sys Tid) : Action Tid → Option (Sys Tid)
  | .call t c => s.enter t (.lock c)
  | .memClear t => s.enter t .clearLock
  | .run t => runTask gfifoSize s t
  | .signal t =>
    some { s with
      sigPending := Function.update s.sigPending t true
      task := Function.update s.task t .running }

/-! ## What a statement can do -/

/-- One case for each way through the next statement of task `t`. -/
inductive Ran (gfifoSize : Nat) (s : Sys Tid) (t : Tid) : Sys Tid → Prop
  | lock {c : Call} {s' : Sys Tid} : s.pc t = .lock c →
      s.acquire t (.addWaitQueue c) = some s' → Ran gfifoSize s t s'
  | addWaitQueue {c : Call} : s.pc t = .addWaitQueue c →
      Ran gfifoSize s t { s.goto t (.test c) with
        wait := Function.update s.wait c.side (t :: s.wait c.side) }
  | goAway {c : Call} : s.pc t = .test c → c.side.blocked gfifoSize s.dev = true →
      c.nonblock = true → Ran gfifoSize s t (s.goto t (.out c (.error .eagain)))
  | goToSleep {c : Call} : s.pc t = .test c → c.side.blocked gfifoSize s.dev = true →
      ¬ c.nonblock = true → Ran gfifoSize s t (s.goto t (.setInterruptible c))
  | pass {c : Call} : s.pc t = .test c → ¬ c.side.blocked gfifoSize s.dev = true →
      Ran gfifoSize s t (s.goto t (.transfer c))
  | setInterruptible {c : Call} : s.pc t = .setInterruptible c →
      Ran gfifoSize s t { s.goto t (.unlockToSleep c) with
        task := Function.update s.task t .interruptible }
  | unlockToSleep {c : Call} : s.pc t = .unlockToSleep c →
      Ran gfifoSize s t { s.goto t (.schedule c) with mutex := none }
  | schedule {c : Call} : s.pc t = .schedule c → s.task t = .running ∨ s.sigPending t = true →
      Ran gfifoSize s t { s.goto t (.signalPending c) with
        task := Function.update s.task t .running }
  | interrupted {c : Call} : s.pc t = .signalPending c → s.sigPending t = true →
      Ran gfifoSize s t (s.goto t (.out2 c (.error .erestartsys)))
  | woken {c : Call} : s.pc t = .signalPending c → ¬ s.sigPending t = true →
      Ran gfifoSize s t (s.goto t (.relock c))
  | relock {c : Call} {s' : Sys Tid} : s.pc t = .relock c → s.acquire t (.test c) = some s' →
      Ran gfifoSize s t s'
  | transferred {c : Call} {n : Nat} : s.pc t = .transfer c →
      (c.body gfifoSize s.dev).1 = .ok n →
      Ran gfifoSize s t { s.goto t (.wakeUp c (c.body gfifoSize s.dev).1) with
        dev := (c.body gfifoSize s.dev).2 }
  | faulted {c : Call} {err : Errno} : s.pc t = .transfer c →
      (c.body gfifoSize s.dev).1 = .error err →
      Ran gfifoSize s t { s.goto t (.out c (c.body gfifoSize s.dev).1) with
        dev := (c.body gfifoSize s.dev).2 }
  | wakeUp {c : Call} {ret : Except Errno Nat} : s.pc t = .wakeUp c ret →
      Ran gfifoSize s t { s.goto t (.out c ret) with
        task := fun u => if u ∈ s.wait c.side.other then .running else s.task u }
  | out {c : Call} {ret : Except Errno Nat} : s.pc t = .out c ret →
      Ran gfifoSize s t { s.goto t (.out2 c ret) with mutex := none }
  | out2 {c : Call} {ret : Except Errno Nat} : s.pc t = .out2 c ret →
      Ran gfifoSize s t { s.goto t (.setRunning c ret) with
        wait := Function.update s.wait c.side ((s.wait c.side).filter (· ≠ t)) }
  | setRunning {c : Call} {ret : Except Errno Nat} : s.pc t = .setRunning c ret →
      Ran gfifoSize s t { s.goto t (.returned ret) with
        task := Function.update s.task t .running }
  | clearLock {s' : Sys Tid} : s.pc t = .clearLock → s.acquire t .clearMemset = some s' →
      Ran gfifoSize s t s'
  | clearMemset : s.pc t = .clearMemset →
      Ran gfifoSize s t { s.goto t .clearUnlock with dev := gfifoMemClear gfifoSize s.dev }
  | clearUnlock : s.pc t = .clearUnlock →
      Ran gfifoSize s t { s.goto t (.returned (.ok 0)) with mutex := none }

theorem runTask_ran {gfifoSize : Nat} {s s' : Sys Tid} {t : Tid}
    (hstep : runTask gfifoSize s t = some s') : Ran gfifoSize s t s' := by
  unfold runTask at hstep
  cases hpc : s.pc t with
  | idle => simp [hpc] at hstep
  | returned ret => simp [hpc] at hstep
  | lock c =>
    simp only [hpc] at hstep
    exact .lock hpc hstep
  | relock c =>
    simp only [hpc] at hstep
    exact .relock hpc hstep
  | clearLock =>
    simp only [hpc] at hstep
    exact .clearLock hpc hstep
  | test c =>
    simp only [hpc] at hstep
    split at hstep
    · next hblocked =>
      split at hstep
      · next hnonblock =>
        cases hstep
        exact .goAway hpc hblocked hnonblock
      · next hnonblock =>
        cases hstep
        exact .goToSleep hpc hblocked hnonblock
    · next hfree =>
      cases hstep
      exact .pass hpc hfree
  | schedule c =>
    simp only [hpc] at hstep
    split at hstep
    · next hrun =>
      cases hstep
      exact .schedule hpc hrun
    · cases hstep
  | signalPending c =>
    simp only [hpc] at hstep
    split at hstep
    · next hsignal =>
      cases hstep
      exact .interrupted hpc hsignal
    · next hsignal =>
      cases hstep
      exact .woken hpc hsignal
  | transfer c =>
    simp only [hpc] at hstep
    split at hstep
    · next hok =>
      cases hstep
      exact .transferred hpc hok
    · next herr =>
      cases hstep
      exact .faulted hpc herr
  | addWaitQueue c =>
    simp only [hpc, Option.some.injEq] at hstep
    subst hstep
    exact .addWaitQueue hpc
  | setInterruptible c =>
    simp only [hpc, Option.some.injEq] at hstep
    subst hstep
    exact .setInterruptible hpc
  | unlockToSleep c =>
    simp only [hpc, Option.some.injEq] at hstep
    subst hstep
    exact .unlockToSleep hpc
  | wakeUp c ret =>
    simp only [hpc, Option.some.injEq] at hstep
    subst hstep
    exact .wakeUp hpc
  | out c ret =>
    simp only [hpc, Option.some.injEq] at hstep
    subst hstep
    exact .out hpc
  | out2 c ret =>
    simp only [hpc, Option.some.injEq] at hstep
    subst hstep
    exact .out2 hpc
  | setRunning c ret =>
    simp only [hpc, Option.some.injEq] at hstep
    subst hstep
    exact .setRunning hpc
  | clearMemset =>
    simp only [hpc, Option.some.injEq] at hstep
    subst hstep
    exact .clearMemset hpc
  | clearUnlock =>
    simp only [hpc, Option.some.injEq] at hstep
    subst hstep
    exact .clearUnlock hpc

/-! ## The invariant -/

/-- What a task inside the mutex knows about the fill level from its last test. -/
def Pc.Tested (gfifoSize : Nat) (dev : GfifoDev) : Pc → Prop
  | setInterruptible c => c.side.blocked gfifoSize dev = true
  | transfer c => c.side.blocked gfifoSize dev = false
  | _ => True

/-- Some task stands right before waking the queue of `sd`. -/
def WakePending (pc : Tid → Pc) (sd : Side) : Prop :=
  ∃ o c ret, pc o = .wakeUp c ret ∧ c.side.other = sd

/-- A sleeping (or about to sleep) task is blocked by the fill level or about to
be woken. -/
def AsleepOk (gfifoSize : Nat) (dev : GfifoDev) (pc : Tid → Pc) (t : Tid) : Prop :=
  ∃ c, (pc t = .unlockToSleep c ∨ pc t = .schedule c) ∧
    (c.side.blocked gfifoSize dev = true ∨ WakePending pc c.side)

/-- A task is linked into a wait queue exactly between `add_wait_queue` and
`remove_wait_queue`. -/
def QueueInv (wait : Side → List Tid) (pc : Tid → Pc) : Prop :=
  ∀ t sd, t ∈ wait sd ↔ (pc t).queue = some sd

structure Inv (gfifoSize : Nat) (s : Sys Tid) : Prop where
  mutex : MutexInv Pc.holds s.mutex s.pc
  queue : QueueInv s.wait s.pc
  tested : ∀ t, (s.pc t).Tested gfifoSize s.dev
  asleep : ∀ t, s.task t = .interruptible → AsleepOk gfifoSize s.dev s.pc t

omit [DecidableEq Tid] in
theorem Inv.fresh (gfifoSize : Nat) : Inv gfifoSize (Sys.fresh : Sys Tid) where
  mutex := by
    intro t
    simp [Sys.fresh, Pc.holds]
  queue := by
    intro t sd
    simp [Sys.fresh, Pc.queue]
  tested := fun _ => trivial
  asleep := by
    intro t ht
    cases ht

/-- A task that moves on knows about the fill level what its new statement says. -/
theorem tested_update {gfifoSize : Nat} {dev : GfifoDev} {pc : Tid → Pc}
    (h : ∀ u, (pc u).Tested gfifoSize dev) {t : Tid} {p : Pc} (hp : p.Tested gfifoSize dev) :
    ∀ u, (Function.update pc t p u).Tested gfifoSize dev :=
  (Function.forall_update_iff pc fun _ q => q.Tested gfifoSize dev).mpr ⟨hp, fun u _ => h u⟩

/-! ### Wait queue bookkeeping -/

namespace QueueInv

variable {wait : Side → List Tid} {pc : Tid → Pc}

theorem stay (h : QueueInv wait pc) {t : Tid} {p : Pc} (hp : p.queue = (pc t).queue) :
    QueueInv wait (Function.update pc t p) := by
  intro u sd
  by_cases hut : u = t
  · subst hut
    rw [Function.update_self, hp]
    exact h u sd
  · rw [Function.update_of_ne hut]
    exact h u sd

/-- One queue changes, and only as far as the moving task is concerned. -/
theorem change (h : QueueInv wait pc) {t : Tid} {p : Pc} {sd : Side} {l : List Tid}
    (hothers : ∀ u, u ≠ t → (u ∈ l ↔ u ∈ wait sd)) (hself : t ∈ l ↔ p.queue = some sd)
    (helsewhere : ∀ sd', sd' ≠ sd → (p.queue = some sd' ↔ (pc t).queue = some sd')) :
    QueueInv (Function.update wait sd l) (Function.update pc t p) := by
  intro u sd'
  by_cases hsd : sd' = sd
  · subst hsd
    by_cases hut : u = t
    · subst hut
      rw [Function.update_self, Function.update_self]
      exact hself
    · rw [Function.update_self, Function.update_of_ne hut, hothers u hut]
      exact h u sd'
  · rw [Function.update_of_ne hsd]
    by_cases hut : u = t
    · subst hut
      rw [Function.update_self, helsewhere sd' hsd]
      exact h u sd'
    · rw [Function.update_of_ne hut]
      exact h u sd'

theorem join (h : QueueInv wait pc) {t : Tid} {p : Pc} {sd : Side}
    (ht : (pc t).queue = none) (hp : p.queue = some sd) :
    QueueInv (Function.update wait sd (t :: wait sd)) (Function.update pc t p) := by
  refine h.change (fun u hut => by simp [hut]) (by simp [hp]) fun sd' hsd => ?_
  simp [ht, hp, Ne.symm hsd]

theorem leave (h : QueueInv wait pc) {t : Tid} {p : Pc} {sd : Side}
    (ht : (pc t).queue = some sd) (hp : p.queue = none) :
    QueueInv (Function.update wait sd ((wait sd).filter (· ≠ t)))
      (Function.update pc t p) := by
  refine h.change (fun u hut => by simp [hut]) (by simp [hp]) fun sd' hsd => ?_
  simp [ht, hp, Ne.symm hsd]

end QueueInv

/-! ### Sleepers -/

/-- A task that does not stand at `wake_up_interruptible` may move on without
cancelling a wake-up that is due. -/
theorem WakePending.move {pc : Tid → Pc} {sd : Side} (h : WakePending pc sd) {t : Tid}
    {p : Pc} (ht : ∀ c ret, pc t ≠ .wakeUp c ret) :
    WakePending (Function.update pc t p) sd := by
  obtain ⟨o, c, ret, hpc, hside⟩ := h
  have hot : o ≠ t := by
    rintro rfl
    exact ht c ret hpc
  exact ⟨o, c, ret, by rw [Function.update_of_ne hot, hpc], hside⟩

/-- Another task's move leaves a sleeper blocked or about to be woken. -/
theorem AsleepOk.move {gfifoSize : Nat} {dev : GfifoDev} {pc : Tid → Pc} {t u : Tid}
    (h : AsleepOk gfifoSize dev pc u) (hut : u ≠ t) {p : Pc}
    (ht : ∀ c ret, pc t ≠ .wakeUp c ret) :
    AsleepOk gfifoSize dev (Function.update pc t p) u := by
  obtain ⟨c, hpc, hwhy⟩ := h
  refine ⟨c, by rwa [Function.update_of_ne hut], ?_⟩
  exact hwhy.imp_right fun hw => hw.move ht

omit [DecidableEq Tid] in
/-- A task is running unless it stands between marking itself and `schedule()`. -/
theorem Inv.awake {gfifoSize : Nat} {s : Sys Tid} (h : Inv gfifoSize s) {t : Tid} {q : Pc}
    (hpc : s.pc t = q) (hu : ∀ c, q ≠ .unlockToSleep c) (hs : ∀ c, q ≠ .schedule c) :
    s.task t = .running := by
  cases htask : s.task t with
  | running => rfl
  | interruptible =>
    obtain ⟨c, hpc' | hpc', -⟩ := h.asleep t htask
    · exact absurd (hpc.symm.trans hpc') (hu c)
    · exact absurd (hpc.symm.trans hpc') (hs c)

omit [DecidableEq Tid] in
/-- A sleeper is not the task that is running. -/
theorem ne_of_asleep {s : Sys Tid} {t u : Tid} (hrun : s.task t = .running)
    (hu : s.task u = .interruptible) : u ≠ t := by
  rintro rfl
  rw [hu] at hrun
  cases hrun

/-! ### One step keeps the invariant -/

section Step

variable {gfifoSize : Nat} {s s' : Sys Tid} {t : Tid}

/-- A statement of a running task that changes neither the device nor any task
state: enough that the mutex and the wait queues are kept in order. -/
theorem Inv.move (h : Inv gfifoSize s) {p q : Pc} (hpc : s.pc t = q) {mutex : Option Tid}
    {wait : Side → List Tid} {sig : Tid → Bool}
    (hmutex : MutexInv Pc.holds mutex (Function.update s.pc t p))
    (hqueue : QueueInv wait (Function.update s.pc t p))
    (hrun : s.task t = .running) (hwake : ∀ c ret, q ≠ .wakeUp c ret)
    (htested : p.Tested gfifoSize s.dev) :
    Inv gfifoSize { s.goto t p with mutex := mutex, wait := wait, sigPending := sig } where
  mutex := hmutex
  queue := hqueue
  tested := tested_update h.tested htested
  asleep := by
    intro u hu
    refine (h.asleep u hu).move (ne_of_asleep hrun hu) ?_
    rw [hpc]
    exact hwake

/-- A statement that leaves the mutex and the wait queues alone as well. -/
theorem Inv.goOn (h : Inv gfifoSize s) {p q : Pc} (hpc : s.pc t = q) {sig : Tid → Bool}
    (hholds : p.holds = q.holds) (hq : p.queue = q.queue) (hrun : s.task t = .running)
    (hwake : ∀ c ret, q ≠ .wakeUp c ret) (htested : p.Tested gfifoSize s.dev) :
    Inv gfifoSize { s.goto t p with sigPending := sig } := by
  subst hpc
  exact h.move rfl (h.mutex.stay hholds) (h.queue.stay hq) hrun hwake htested

theorem Inv.acquire (h : Inv gfifoSize s) {p q : Pc} (hpc : s.pc t = q)
    (hstep : s.acquire t p = some s') (hp : p.holds = true) (hq : p.queue = q.queue)
    (hrun : s.task t = .running) (hwake : ∀ c ret, q ≠ .wakeUp c ret)
    (htested : p.Tested gfifoSize s.dev) : Inv gfifoSize s' := by
  subst hpc
  unfold Sys.acquire at hstep
  split at hstep
  · next hfree =>
    cases hstep
    exact h.move rfl (h.mutex.acquire hfree hp) (h.queue.stay hq) hrun hwake htested
  · cases hstep

theorem Inv.release (h : Inv gfifoSize s) {p q : Pc} (hpc : s.pc t = q) (hholds : q.holds = true)
    (hp : p.holds = false) (hq : p.queue = q.queue) (hrun : s.task t = .running)
    (hwake : ∀ c ret, q ≠ .wakeUp c ret) (htested : p.Tested gfifoSize s.dev) :
    Inv gfifoSize { s.goto t p with mutex := none } := by
  subst hpc
  exact h.move rfl (h.mutex.release hholds hp) (h.queue.stay hq) hrun hwake htested

theorem Inv.enter (h : Inv gfifoSize s) {p : Pc} (hstep : s.enter t p = some s')
    (hp : p.holds = false) (hq : p.queue = none) (htested : p.Tested gfifoSize s.dev) :
    Inv gfifoSize s' := by
  unfold Sys.enter at hstep
  split at hstep
  case h_1 hpc =>
    cases hstep
    exact h.goOn hpc hp hq (h.awake hpc nofun nofun) nofun htested
  case h_2 hpc =>
    cases hstep
    exact h.goOn hpc hp hq (h.awake hpc nofun nofun) nofun htested
  case h_3 => cases hstep

/-- The fill level only moves away from what blocks the caller's own side, and a
failing body does not move it. -/
theorem body_curLen (c : Call) (dev : GfifoDev) {ret : Except Errno Nat} {dev' : GfifoDev}
    (hbody : c.body gfifoSize dev = (ret, dev')) {err : Errno} (herr : ret = .error err) :
    dev'.curLen = dev.curLen := by
  subst herr
  cases c with
  | read req =>
    rcases gfifoReadBody_spec dev req with ⟨out, hspec⟩ | ⟨n, dev₁, hspec, -⟩
    · simp only [Call.body, hspec, Prod.mk.injEq] at hbody
      rw [hbody.2]
    · simp [Call.body, hspec] at hbody
  | write buf req =>
    rcases gfifoWriteBody_spec gfifoSize dev buf req with
      ⟨dev₁, hspec, hkeep⟩ | ⟨n, dev₁, hspec, -⟩
    · simp only [Call.body, hspec, Prod.mk.injEq] at hbody
      rw [← hbody.2, hkeep.curLen]
    · simp [Call.body, hspec] at hbody

/-- Whether a side is blocked depends on the fill level only. -/
theorem blocked_congr {dev dev' : GfifoDev} (h : dev'.curLen = dev.curLen) (sd : Side) :
    sd.blocked gfifoSize dev' = sd.blocked gfifoSize dev := by
  cases sd <;> simp [Side.blocked, h]

/-- An action that wakes no queue: other tasks stay where they are, no wake-up that is due
gets lost, and the fill level changes only in a transfer, behind which a wake-up is due. -/
structure Quiet (s s' : Sys Tid) (t : Tid) : Prop where
  others : ∀ u, u ≠ t → s'.pc u = s.pc u
  due : ∀ sd, WakePending s.pc sd → WakePending s'.pc sd
  level : s'.dev.curLen = s.dev.curLen ∨
    ∃ c ret, s.pc t = .transfer c ∧ s'.pc t = .wakeUp c ret

theorem Quiet.move {p q : Pc} (hpc : s.pc t = q) (hwake : ∀ c ret, q ≠ .wakeUp c ret)
    (hpc' : s'.pc = Function.update s.pc t p)
    (hlevel : s'.dev.curLen = s.dev.curLen ∨ ∃ c ret, q = .transfer c ∧ p = .wakeUp c ret) :
    Quiet s s' t := by
  subst hpc
  refine ⟨fun u hut => ?_, fun sd hdue => ?_, ?_⟩
  · rw [hpc', Function.update_of_ne hut]
  · rw [hpc']
    exact hdue.move hwake
  · rwa [hpc', Function.update_self]

theorem Quiet.acquire {p q : Pc} (hpc : s.pc t = q) (hwake : ∀ c ret, q ≠ .wakeUp c ret)
    (hstep : s.acquire t p = some s') : Quiet s s' t := by
  unfold Sys.acquire at hstep
  split at hstep
  · cases hstep
    exact Quiet.move hpc hwake rfl (.inl rfl)
  · cases hstep

theorem Quiet.enter {p : Pc} (hstep : s.enter t p = some s') : Quiet s s' t := by
  unfold Sys.enter at hstep
  split at hstep
  case h_1 hpc | h_2 hpc =>
    cases hstep
    exact Quiet.move hpc nofun rfl (.inl rfl)
  case h_3 => cases hstep

theorem step_quiet {a : Action Tid} (hstep : step gfifoSize s a = some s')
    (hquiet : waking s a = none) : Quiet s s' a.task := by
  cases a with
  | call t c | memClear t => exact Quiet.enter hstep
  | signal t =>
    cases hstep
    exact ⟨fun _ _ => rfl, fun _ hdue => hdue, .inl rfl⟩
  | run t =>
    cases runTask_ran hstep with
    | lock hpc hacquire | relock hpc hacquire => exact Quiet.acquire hpc nofun hacquire
    | clearLock hpc hacquire => exact Quiet.acquire hpc nofun hacquire
    | @transferred c n hpc => exact Quiet.move hpc nofun rfl (.inr ⟨c, _, rfl, rfl⟩)
    | @faulted c err hpc herr =>
      exact Quiet.move hpc nofun rfl (.inl (body_curLen c s.dev rfl herr))
    | wakeUp hpc => simp [waking, hpc] at hquiet
    | addWaitQueue hpc | goAway hpc | goToSleep hpc | pass hpc | setInterruptible hpc =>
      exact Quiet.move hpc nofun rfl (.inl rfl)
    | unlockToSleep hpc | schedule hpc | interrupted hpc | woken hpc | out hpc | out2 hpc =>
      exact Quiet.move hpc nofun rfl (.inl rfl)
    | setRunning hpc | clearMemset hpc | clearUnlock hpc =>
      exact Quiet.move hpc nofun rfl (.inl rfl)

/-- No action moves a task that it is not about. -/
theorem step_others {a : Action Tid} (hstep : step gfifoSize s a = some s') {u : Tid}
    (hu : u ≠ a.task) : s'.pc u = s.pc u := by
  cases hquiet : waking s a with
  | none => exact (step_quiet hstep hquiet).others u hu
  | some sd =>
    cases a with
    | run t =>
      cases hpc : s.pc t with
      | wakeUp c ret =>
        simp only [step, runTask, hpc, Option.some.injEq] at hstep
        subst hstep
        exact Function.update_of_ne hu _ _
      | _ => simp [waking, hpc] at hquiet
    | call | memClear | signal => cases hquiet

/-- Changing device memory under the mutex without changing the fill level. -/
theorem Inv.moveDev (h : Inv gfifoSize s) {p q : Pc} (hpc : s.pc t = q) {dev : GfifoDev}
    (hlen : dev.curLen = s.dev.curLen) (hholds : p.holds = q.holds) (hq : p.queue = q.queue)
    (hrun : s.task t = .running) (hwake : ∀ c ret, q ≠ .wakeUp c ret)
    (htested : p.Tested gfifoSize s.dev) : Inv gfifoSize { s.goto t p with dev := dev } := by
  have hmoved : Inv gfifoSize (s.goto t p) := h.goOn hpc hholds hq hrun hwake htested
  have htest : ∀ q : Pc, q.Tested gfifoSize s.dev → q.Tested gfifoSize dev := by
    intro q hq
    cases q <;> simp only [Pc.Tested, blocked_congr hlen] at hq ⊢ <;> exact hq
  refine ⟨hmoved.mutex, hmoved.queue, fun u => htest _ (hmoved.tested u), ?_⟩
  intro u hu
  obtain ⟨c, hpc, hwhy⟩ := hmoved.asleep u hu
  refine ⟨c, hpc, ?_⟩
  rw [blocked_congr hlen]
  exact hwhy

/-- Going to sleep: the task has just found the FIFO blocked, and still holds the
mutex. -/
theorem Inv.setInterruptible (h : Inv gfifoSize s) {c : Call}
    (hpc : s.pc t = .setInterruptible c) :
    Inv gfifoSize { s.goto t (.unlockToSleep c) with
      task := Function.update s.task t .interruptible } where
  mutex := h.mutex.stay (by rw [hpc]; rfl)
  queue := h.queue.stay (by rw [hpc]; rfl)
  tested := tested_update h.tested trivial
  asleep := by
    intro u hu
    by_cases hut : u = t
    · subst hut
      have hblocked := h.tested u
      rw [hpc] at hblocked
      exact ⟨c, Or.inl (Function.update_self ..), Or.inl hblocked⟩
    · have hu' : s.task u = .interruptible := by
        simpa [Function.update_of_ne hut] using hu
      exact (h.asleep u hu').move hut (by simp [hpc])

/-- Letting the mutex go on the way to `schedule()`. -/
theorem Inv.unlockToSleep (h : Inv gfifoSize s) {c : Call} (hpc : s.pc t = .unlockToSleep c) :
    Inv gfifoSize { s.goto t (.schedule c) with mutex := none } where
  mutex := h.mutex.release (by rw [hpc]; rfl) rfl
  queue := h.queue.stay (by rw [hpc]; rfl)
  tested := tested_update h.tested trivial
  asleep := by
    intro u hu
    by_cases hut : u = t
    · subst hut
      obtain ⟨c', hpc' | hpc', hwhy⟩ := h.asleep u hu
      · rw [hpc] at hpc'
        cases hpc'
        refine ⟨c, Or.inr (Function.update_self ..), ?_⟩
        exact hwhy.imp_right fun hw => hw.move (by simp [hpc])
      · rw [hpc] at hpc'
        cases hpc'
    · exact (h.asleep u hu).move hut (by simp [hpc])

omit [DecidableEq Tid] in
/-- A task inside the mutex is the only one that can stand before a wake-up. -/
theorem Inv.not_wakePending (h : Inv gfifoSize s) (ht : (s.pc t).holds = true)
    (hwake : ∀ c ret, s.pc t ≠ .wakeUp c ret) (sd : Side) : ¬ WakePending s.pc sd := by
  rintro ⟨o, c, ret, hpc, -⟩
  have hot : o = t := h.mutex.exclusive (by rw [hpc]; rfl) ht
  subst hot
  exact hwake c ret hpc

theorem Side.eq_or_eq_other (a b : Side) : a = b ∨ a = b.other := by
  cases a <;> cases b <;> simp [Side.other]

theorem Side.ne_other (a : Side) : a ≠ a.other := by
  cases a <;> simp [Side.other]

/-- The fill level has changed: sleepers of the other side are about to be woken,
and the caller's own side had none. -/
theorem Inv.transfer (h : Inv gfifoSize s) {c : Call} (hpc : s.pc t = .transfer c)
    {ret : Except Errno Nat} {dev : GfifoDev} :
    Inv gfifoSize { s.goto t (.wakeUp c ret) with dev := dev } where
  mutex := h.mutex.stay (by rw [hpc]; rfl)
  queue := h.queue.stay (by rw [hpc]; rfl)
  tested := by
    intro u
    show (Function.update s.pc t (.wakeUp c ret) u).Tested gfifoSize dev
    by_cases hut : u = t
    · subst hut
      rw [Function.update_self]
      trivial
    · rw [Function.update_of_ne hut]
      -- only the holder of the mutex has tested the fill level
      have hout : ¬ (s.pc u).holds = true := fun hu =>
        hut (h.mutex.exclusive hu (by rw [hpc]; rfl))
      cases hu : s.pc u <;> first | trivial | (rw [hu] at hout; exact absurd rfl hout)
  asleep := by
    intro u hu
    have hut : u ≠ t := ne_of_asleep (h.awake hpc nofun nofun) hu
    obtain ⟨c', hpc', hwhy⟩ := h.asleep u hu
    refine ⟨c', ?_, ?_⟩
    · show Function.update s.pc t _ u = _ ∨ Function.update s.pc t _ u = _
      rwa [Function.update_of_ne hut]
    · have hfree := h.tested t
      rw [hpc] at hfree
      have hblocked : c'.side.blocked gfifoSize s.dev = true :=
        hwhy.resolve_right (h.not_wakePending (by rw [hpc]; rfl) (by simp [hpc]) _)
      rcases Side.eq_or_eq_other c'.side c.side with hsame | hother
      · rw [hsame, show c.side.blocked gfifoSize s.dev = false from hfree] at hblocked
        cases hblocked
      · exact Or.inr ⟨t, c, ret, Function.update_self .., hother.symm⟩

/-- Waking a queue leaves sleepers on the other queue only, and those are blocked
by the fill level. -/
theorem Inv.wakeUp (h : Inv gfifoSize s) {c : Call} {ret : Except Errno Nat}
    (hpc : s.pc t = .wakeUp c ret) :
    Inv gfifoSize { s.goto t (.out c ret) with
      task := fun u => if u ∈ s.wait c.side.other then .running else s.task u } where
  mutex := h.mutex.stay (by rw [hpc]; rfl)
  queue := h.queue.stay (by rw [hpc]; rfl)
  tested := tested_update h.tested trivial
  asleep := by
    intro u hu
    have hnot : u ∉ s.wait c.side.other := by
      intro hmem
      simp [hmem] at hu
    have hu' : s.task u = .interruptible := by simpa [hnot] using hu
    obtain ⟨c', hpc', hwhy⟩ := h.asleep u hu'
    have hut : u ≠ t := by
      rintro rfl
      rw [hpc] at hpc'
      rcases hpc' with hpc' | hpc' <;> cases hpc'
    have hmem : u ∈ s.wait c'.side := by
      refine (h.queue u c'.side).mpr ?_
      rcases hpc' with hpc' | hpc' <;> rw [hpc'] <;> rfl
    have hside : c'.side = c.side := by
      rcases Side.eq_or_eq_other c'.side c.side with hsame | hother
      · exact hsame
      · rw [hother] at hmem
        exact absurd hmem hnot
    refine ⟨c', ?_, Or.inl ?_⟩
    · show Function.update s.pc t _ u = _ ∨ Function.update s.pc t _ u = _
      rwa [Function.update_of_ne hut]
    · -- a wake-up of the caller's own queue cannot be due
      refine hwhy.resolve_right ?_
      rintro ⟨o, c₂, ret₂, hpc₂, hside₂⟩
      have hot : o = t := h.mutex.exclusive (by rw [hpc₂]; rfl) (by rw [hpc]; rfl)
      subst hot
      rw [hpc] at hpc₂
      cases hpc₂
      rw [hside] at hside₂
      exact Side.ne_other _ hside₂.symm

/-- A signal reaches a task wherever it stands: marking it runnable never hurts. -/
theorem Inv.signal (h : Inv gfifoSize s) {sig : Tid → Bool} :
    Inv gfifoSize { s with
      sigPending := sig, task := Function.update s.task t .running } where
  mutex := h.mutex
  queue := h.queue
  tested := h.tested
  asleep := by
    intro u hu
    have hut : u ≠ t := by
      rintro rfl
      simp at hu
    have hu' : s.task u = .interruptible := by simpa [Function.update_of_ne hut] using hu
    exact h.asleep u hu'

/-- `set_current_state(TASK_RUNNING)` -/
theorem Inv.setRunning (h : Inv gfifoSize s) {p q : Pc} (hpc : s.pc t = q)
    (hholds : p.holds = q.holds) (hq : p.queue = q.queue) (hwake : ∀ c ret, q ≠ .wakeUp c ret)
    (htested : p.Tested gfifoSize s.dev) :
    Inv gfifoSize { s.goto t p with task := Function.update s.task t .running } := by
  have hmarked : Inv gfifoSize { s with task := Function.update s.task t .running } := h.signal
  exact hmarked.goOn hpc hholds hq (Function.update_self ..) hwake htested

/-- **Step lemma** for a task's own statements: one case per way through them. -/
theorem runTask_inv (h : Inv gfifoSize s) (hstep : runTask gfifoSize s t = some s') :
    Inv gfifoSize s' := by
  cases runTask_ran hstep with
  | lock hpc hacquire | relock hpc hacquire =>
    exact h.acquire hpc hacquire rfl rfl (h.awake hpc nofun nofun) nofun trivial
  | clearLock hpc hacquire =>
    exact h.acquire hpc hacquire rfl rfl (h.awake hpc nofun nofun) nofun trivial
  | addWaitQueue hpc =>
    exact h.move hpc (h.mutex.stay (by rw [hpc]; rfl)) (h.queue.join (by rw [hpc]; rfl) rfl)
      (h.awake hpc nofun nofun) nofun trivial
  | goAway hpc => exact h.goOn hpc rfl rfl (h.awake hpc nofun nofun) nofun trivial
  | goToSleep hpc hblocked => exact h.goOn hpc rfl rfl (h.awake hpc nofun nofun) nofun hblocked
  | pass hpc hfree =>
    exact h.goOn hpc rfl rfl (h.awake hpc nofun nofun) nofun (Bool.eq_false_iff.mpr hfree)
  | setInterruptible hpc => exact h.setInterruptible hpc
  | unlockToSleep hpc => exact h.unlockToSleep hpc
  | schedule hpc => exact h.setRunning hpc rfl rfl nofun trivial
  | interrupted hpc | woken hpc =>
    exact h.goOn hpc rfl rfl (h.awake hpc nofun nofun) nofun trivial
  | transferred hpc => exact h.transfer hpc
  | @faulted c err hpc herr =>
    refine h.moveDev hpc ?_ rfl rfl (h.awake hpc nofun nofun) nofun trivial
    exact body_curLen c s.dev rfl herr
  | wakeUp hpc => exact h.wakeUp hpc
  | out hpc => exact h.release hpc rfl rfl rfl (h.awake hpc nofun nofun) nofun trivial
  | out2 hpc =>
    exact h.move hpc (h.mutex.stay (by rw [hpc]; rfl)) (h.queue.leave (by rw [hpc]; rfl) rfl)
      (h.awake hpc nofun nofun) nofun trivial
  | setRunning hpc => exact h.setRunning hpc rfl rfl nofun trivial
  | clearMemset hpc => exact h.moveDev hpc rfl rfl rfl (h.awake hpc nofun nofun) nofun trivial
  | clearUnlock hpc => exact h.release hpc rfl rfl rfl (h.awake hpc nofun nofun) nofun trivial

theorem step_inv (h : Inv gfifoSize s) {a : Action Tid}
    (hstep : step gfifoSize s a = some s') : Inv gfifoSize s' := by
  cases a with
  | call t c => exact h.enter hstep rfl rfl trivial
  | memClear t => exact h.enter hstep rfl rfl trivial
  | run t => exact runTask_inv h hstep
  | signal t =>
    cases hstep
    exact h.signal

/-- The invariant along every interleaving. -/
theorem reach_inv (h : Reach (step gfifoSize) anyStep .fresh s) : Inv gfifoSize s :=
  h.invariant (Inv.fresh gfifoSize) fun hi _ hstep => step_inv hi hstep

end Step

/-- **No lost wake-up**: whenever the mutex is free, a sleeping reader waits for
an empty FIFO and a sleeping writer for a full one; and a task that has returned
has let go of the mutex and of both wait queues. -/
theorem gfifo_no_lost_wakeup {gfifoSize : Nat} {s : Sys Tid}
    (h : Reach (step gfifoSize) anyStep .fresh s) :
    (s.mutex = none → ∀ t, s.task t = .interruptible →
      (t ∈ s.wait .reader → s.dev.curLen = 0) ∧
      (t ∈ s.wait .writer → s.dev.curLen = gfifoSize)) ∧
    ∀ t ret, s.pc t = .returned ret →
      s.mutex ≠ some t ∧ t ∉ s.wait .reader ∧ t ∉ s.wait .writer := by
  have hinv := reach_inv h
  constructor
  · intro hfree t ht
    obtain ⟨c, hpc, hwhy⟩ := hinv.asleep t ht
    have hblocked : c.side.blocked gfifoSize s.dev = true := by
      refine hwhy.resolve_right ?_
      rintro ⟨o, c', ret, hpc', -⟩
      have hout := hinv.mutex.outside hfree o
      rw [hpc'] at hout
      cases hout
    have hqueue : (s.pc t).queue = some c.side := by
      rcases hpc with hpc | hpc <;> rw [hpc] <;> rfl
    constructor
    · intro hmem
      rw [(hinv.queue t .reader).mp hmem] at hqueue
      rw [← Option.some.inj hqueue] at hblocked
      simpa [Side.blocked] using hblocked
    · intro hmem
      rw [(hinv.queue t .writer).mp hmem] at hqueue
      rw [← Option.some.inj hqueue] at hblocked
      simpa [Side.blocked] using hblocked
  · intro t ret hpc
    have hqueue : (s.pc t).queue = none := by
      rw [hpc]
      rfl
    refine ⟨?_, ?_, ?_⟩
    · intro howner
      have hholds := (hinv.mutex t).mp howner
      rw [hpc] at hholds
      cases hholds
    · intro hmem
      rw [(hinv.queue t .reader).mp hmem] at hqueue
      cases hqueue
    · intro hmem
      rw [(hinv.queue t .writer).mp hmem] at hqueue
      cases hqueue

/-- A reader calls and runs up to `schedule()`. -/
def readerFallsAsleep : List (Action Bool) :=
  .call true (.read { threeBytes with nonblock := false }) :: List.replicate 5 (.run true)

/-- On an empty FIFO it is asleep there, with the mutex free. -/
theorem gfifo_no_lost_wakeup_reader_asleep :
    ∃ s, runFrom (step 4) .fresh readerFallsAsleep = some s ∧
      s.mutex = none ∧ s.task true = .interruptible ∧ true ∈ s.wait .reader ∧
      s.dev.curLen = 0 := by
  obtain ⟨s, hrun, hfree, htask, hmem⟩ :
      ∃ s, runFrom (step 4) .fresh readerFallsAsleep = some s ∧
        s.mutex = none ∧ s.task true = .interruptible ∧ true ∈ s.wait .reader :=
    ⟨_, rfl, rfl, rfl, by decide⟩
  have hsleep := (gfifo_no_lost_wakeup (reach_runFrom hrun)).1 hfree true htask
  exact ⟨s, hrun, hfree, htask, hmem, hsleep.1 hmem⟩

end WaitQueue

end LinuxDeviceDriver.Gfifo
