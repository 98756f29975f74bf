import LinuxDeviceDriver.Lib.Pool
import LinuxDeviceDriver.Watchdog.Device

/-!
# The watchdog driver with everything that runs at the same time

Any number of threads write commands to open file descriptors and call probe and
remove. Beside them there is the timer with its handler (`dev_watchdog_timeout`),
which is executed by one CPU at a time, and the worker of the workqueue
(`dev_watchdog_work`). The pieces of code are those of `Watchdog.Device`; a step is

- the load or the store of an assignment to a bit field,
- one register access function (each is atomic under its own lock),
- `del_timer_sync`, or one of the stages of probe and remove.

`misc_registered`, `timer_running` and `wd_state` share one byte and no lock. An assignment to one
of them loads the byte, changes its own bits and stores the byte: it writes the other two back as
they were at the load (`Pc.store`), whatever has been stored in between. `mod_timer` follows the
store of `timer_running` in the same step.

`del_timer_sync` waits until no handler is executing and leaves the timer not
pending. `destroy_workqueue` waits until the work has been done.

The fields from `stopped` on are ghosts: no step depends on them.
-/

namespace LinuxDeviceDriver.Watchdog

open Lib Generic

/-- The next statement of `dev_watchdog_timeout`. -/
inductive Handler
  | test
  | act
  | restart
  | store (byte : Flags)
deriving DecidableEq, Repr

/-- The stages of `dev_watchdog_probe`. -/
inductive Stage
  | check
  | map
  | props
  | misc
  | workqueue
  | readEnable
  | readState
deriving DecidableEq, Repr

/-- What follows a `dev_watchdog_stop`: its command returns, or remove goes on. -/
inductive AfterStop
  | back (ret : Int)
  | tearDown (ret : Int)
deriving DecidableEq, Repr

/-- What follows the state that has been read: the enable command returns, or the probe. -/
inductive AfterState
  | back (ret : Int)
  | probed
deriving DecidableEq, Repr

/-- An assignment to a bit field, with what the thread does behind it. -/
inductive Assign
  /-- `timer_running = 1` of a start command. -/
  | start (ret : Int)
  /-- `timer_running = 0` -/
  | stop (k : AfterStop)
  /-- `misc_registered = 1` -/
  | register (env : ProbeEnv)
  /-- `misc_registered = 0` -/
  | deregister (ret : Int)
  /-- `wd_state = WD_STATE_UNKNOWN` -/
  | unknown (env : ProbeEnv)
  /-- `wd_state`, as read from the register. -/
  | state (st : WdState) (k : AfterState)

/-- The next statement of a thread. Remove, and a probe that has failed, carry the value to
return with them. At `assign` the byte is to be loaded, at `store` it has been. -/
inductive Pc
  | returned (ret : Int)
  | command (c : Command) (len : Nat)
  | readBack (len : Nat)
  | assign (a : Assign)
  | store (byte : Flags) (a : Assign)
  | probe (env : ProbeEnv) (stage : Stage)
  | stop (ret : Int)
  | sync (k : AfterStop)
  | destroy (ret : Int)
  | deregister (ret : Int)
  | unmap (ret : Int)

/-- Where the driver is between its workqueue and the next. -/
inductive Phase
  /-- Before `create_singlethread_workqueue`, behind `destroy_workqueue`. -/
  | quiet
  /-- From there to the return of `del_timer_sync` in remove. -/
  | armed
  /-- From there to the return of `destroy_workqueue`. -/
  | draining
deriving DecidableEq, Repr

/-- The world, the handler, the work item, and the ghosts. -/
structure Shared (T σ : Type) extends World σ where
  handler : Option Handler
  queued : Bool
  working : Bool
  /-- A stop has returned, and no start command came since. -/
  stopped : Bool
  /-- The handler or the worker has kicked while `stopped`. -/
  lateKick : Bool
  /-- The thread that is in a probe or a remove. -/
  core : Option T
  phase : Phase

inductive Event
  | write (c : Byte) (len : Nat)
  | probe (env : ProbeEnv)
  | remove
  | run
  | expire
  | handler
  | takeWork
  | work

section System

variable {T σ : Type} (exec : (c : RegCmd) → σ → c.Answer × σ)

/-- Code that only sees the world. -/
def Shared.on (f : World σ → World σ) (g : Shared T σ) : Shared T σ :=
  { g with toWorld := f g.toWorld }

/-- The workqueue `priv.workqueue` points to is there. -/
def World.hasQueue (w : World σ) : Bool :=
  match w.priv.workqueue with
  | some q => .workqueue q ∈ w.held
  | none => false

/-- `queue_work` -/
def Shared.queueWork (g : Shared T σ) : Shared T σ :=
  if g.hasQueue then { g with queued := true } else { g with faults := .queue :: g.faults }

/-- A kick nobody has asked for just now. -/
def Shared.autoKick (g : Shared T σ) : Shared T σ :=
  { g.on (devWatchdogKick exec) with lateKick := g.lateKick || g.stopped }

/-- The bit fields are what was loaded. -/
def World.reload (byte : Flags) (w : World σ) : World σ := { w with priv.toFlags := byte }

/-- `dev_watchdog_timeout` -/
def runHandler (g : Shared T σ) : Option (Shared T σ) :=
  match g.handler with
  | none => none
  | some .test => some { g with handler := if g.priv.timerRunning then some .act else none }
  | some .act =>
    some { (if g.priv.useWorkqueue then g.queueWork else g.autoKick exec) with
      handler := some .restart }
  | some .restart => some { g with handler := some (.store g.priv.toFlags) }
  | some (.store byte) =>
    some { g.on fun w => devWatchdogStart (w.reload byte) with handler := none }

/-- A stage of `dev_watchdog_probe`. An error goes to `dev_watchdog_remove`. -/
def runProbe (env : ProbeEnv) (g : Shared T σ) : Stage → Pc × Shared T σ
  | .check =>
    if g.priv.regBase ≠ none then (.returned Errno.eio.neg, { g with core := none })
    else (.probe env .map, g)
  | .map =>
    (if (mapMemory env g.toWorld).priv.regBase = none then .stop Errno.eio.neg
      else .probe env .props, g.on (mapMemory env))
  | .props =>
    (match (getProps env watchdogProps g.priv.props).1 with
      | some e => .stop e.neg
      | none => .probe env .misc, g.on (setProps env))
  | .misc =>
    if env.miscRegister < 0 then (.stop env.miscRegister, g)
    else (.assign (.register env), g.on (World.acquire .misc))
  | .workqueue =>
    -- INIT_WORK follows at once
    if (setWorkqueue env g.toWorld).priv.workqueue = none then
      (.stop env.miscRegister, g.on (setWorkqueue env))
    else (.probe env .readEnable, { g.on (setWorkqueue env) with phase := .armed })
  | .readEnable => (.store g.priv.toFlags (.unknown env), g)
  | .readState =>
    if g.priv.hasEnable then
      (.assign (.state (fetchState exec g.toWorld).1 .probed), g.on fun w => (fetchState exec w).2)
    else (.returned 0, { g with core := none })

/-- The thread behind its `del_timer_sync`. -/
def AfterStop.pc : AfterStop → Pc
  | back ret => .returned ret
  | tearDown ret => .destroy ret

def AfterStop.phase (p : Phase) : AfterStop → Phase
  | back _ => p
  | tearDown _ => .draining

/-- The assignment as sequential code. -/
def Assign.write : Assign → World σ → World σ
  | start _ => devWatchdogStart
  | stop _ => clearRunning
  | register env => setRegistered env
  | deregister _ => clearRegistered
  | unknown _ => setState .unknown
  | state st _ => setState st

/-- The thread behind the assignment. -/
def Assign.pc : Assign → Pc
  | start ret => .returned ret
  | stop k => .sync k
  | register env => .probe env .workqueue
  | deregister ret => .unmap ret
  | unknown env => .probe env .readState
  | state _ (.back ret) => .returned ret
  | state _ .probed => .returned 0

/-- The ghosts at the store. -/
def Assign.mark (g : Shared T σ) : Assign → Shared T σ
  | start _ => { g with stopped := false }
  | state _ .probed => { g with core := none }
  | _ => g

/-- A statement of a thread. -/
def runThread (g : Shared T σ) : Pc → Option (Pc × Shared T σ)
  | .returned _ => none
  | .command .stop len => some (.store g.priv.toFlags (.stop (.back len)), g)
  | .command .kick len => some (.returned len, g.on (devWatchdogKick exec))
  | .command .start len => some (.store g.priv.toFlags (.start len), g)
  | .command (.enable on) len =>
    if g.priv.hasEnable then some (.readBack len, g.on (setEnable exec on))
    else some (.returned len, g)
  | .readBack len =>
    some (.assign (.state (fetchState exec g.toWorld).1 (.back len)),
      g.on fun w => (fetchState exec w).2)
  | .assign a => some (.store g.priv.toFlags a, g)
  | .store byte a => some (a.pc, a.mark (g.on fun w => a.write (w.reload byte)))
  | .probe env stage => some (runProbe exec env g stage)
  | .stop ret => some (.store g.priv.toFlags (.stop (.tearDown ret)), g)
  | .sync k =>
    if g.handler = none then
      some (k.pc, { g.on delTimerSync with stopped := true, phase := k.phase g.phase })
    else none
  | .destroy ret =>
    -- destroy_workqueue waits for the work
    if g.priv.workqueue ≠ none ∧ (g.queued ∨ g.working) then none
    else some (.deregister ret, { g.on destroyWorkqueue with phase := .quiet })
  | .deregister ret =>
    if g.priv.miscRegistered then some (.assign (.deregister ret), g.on (World.release .misc))
    else some (.unmap ret, g)
  | .unmap ret => some (.returned ret, { g.on unmapMemory with core := none })

/-- One step. The timer and the worker move on their own, whatever the thread is doing. -/
def move (t : T) (pc : Pc) (g : Shared T σ) : Event → Option (Pc × Shared T σ)
  | .write c len =>
    match pc with
    | .returned _ =>
      match Command.ofChar c with
      | some command => some (.command command len, g)
      | none => some (.returned Errno.einval.neg, g)
    | _ => none
  | .probe env =>
    match pc with
    | .returned _ => some (.probe env .check, { g with core := some t })
    | _ => none
  | .remove =>
    match pc with
    | .returned _ => some (.stop 0, { g with core := some t })
    | _ => none
  | .run => runThread exec g pc
  | .expire =>
    if g.timerPending ∧ g.handler = none then
      some (pc, { g with timerPending := false, handler := some .test })
    else none
  | .handler => (runHandler exec g).map fun g' => (pc, g')
  | .takeWork =>
    if g.queued ∧ ¬ g.working then some (pc, { g with queued := false, working := true })
    else none
  | .work =>
    if g.working then some (pc, { g.autoKick exec with working := false })
    else none

/-- After `dev_watchdog_init`. -/
def boot (regs : σ) : Pool T Pc (Shared T σ) where
  threads := fun _ => .returned 0
  shared :=
    { World.init regs with
      handler := none
      queued := false
      working := false
      stopped := false
      lateKick := false
      core := none
      phase := .quiet }

/-! ## The byte

An assignment to `misc_registered` or `wd_state` writes `timer_running` back. -/

/-- The assignment is to another field than `timer_running`. -/
def Assign.keepsTimer : Assign → Bool
  | start _ => false
  | stop _ => false
  | _ => true

/-- `timer_running`, when it is written back, is still what it was at the load. -/
def Pc.Whole (running : Bool) : Pc → Prop
  | store byte a => a.keepsTimer = true → byte.timerRunning = running
  | _ => True

instance (running : Bool) (pc : Pc) : Decidable (pc.Whole running) := by
  unfold Pc.Whole
  split <;> infer_instance

/-! ## A thread on its own

With no handler executing and no work to do, a thread that is not disturbed does what
the sequential functions of `Watchdog.Device` do. -/

/-- The statements of one thread, and nothing else. -/
def soloStep (s : Pc × Shared T σ) (_ : Unit) : Option (Pc × Shared T σ) :=
  runThread exec s.2 s.1

abbrev Runs : Pc × Shared T σ → Pc × Shared T σ → Prop := Reach (soloStep exec) anyStep

/-- Neither the handler nor the worker has anything to do. -/
structure Shared.Alone (g : Shared T σ) : Prop where
  handler : g.handler = none
  queued : g.queued = false
  working : g.working = false

variable {exec} {s : Pc × Shared T σ} {g : Shared T σ}

theorem Runs.next {pc : Pc} {s' : Pc × Shared T σ} (h : Runs exec s (pc, g))
    (hrun : runThread exec g pc = some s') : Runs exec s s' :=
  h.tail (a := ()) trivial hrun

/-- A byte that is stored as it was loaded: the assignment is the sequential one. -/
theorem solo_store {a : Assign} (hrun : Runs exec s (.store g.priv.toFlags a, g)) :
    Runs exec s (a.pc, a.mark (g.on a.write)) :=
  hrun.next rfl

theorem solo_assign {a : Assign} (hrun : Runs exec s (.assign a, g)) :
    Runs exec s (a.pc, a.mark (g.on a.write)) :=
  solo_store (hrun.next rfl)

theorem solo_deregister {ret : Int} (hrun : Runs exec s (.deregister ret, g)) :
    ∃ g' : Shared T σ, Runs exec s (.unmap ret, g') ∧ g'.toWorld = miscDeregister g.toWorld := by
  unfold miscDeregister
  split
  · next hregistered =>
    have hreleased : Runs exec s (.assign (.deregister ret), g.on (World.release .misc)) :=
      hrun.next (if_pos hregistered)
    exact ⟨_, solo_assign hreleased, rfl⟩
  · next hnot => exact ⟨g, hrun.next (if_neg hnot), rfl⟩

/-- The tail of a remove. -/
theorem solo_tearDown {ret : Int} (hrun : Runs exec s (.destroy ret, g)) (halone : g.Alone) :
    ∃ g' : Shared T σ, Runs exec s (.returned ret, g') ∧ g'.toWorld = tearDown g.toWorld := by
  have hready : ¬ (g.priv.workqueue ≠ none ∧ (g.queued ∨ g.working)) := by
    simp [halone.queued, halone.working]
  have hdestroyed : Runs exec s
      (.deregister ret, { g.on destroyWorkqueue with phase := .quiet }) :=
    hrun.next (if_neg hready)
  obtain ⟨g', hderegistered, hworld⟩ := solo_deregister hdestroyed
  refine ⟨_, hderegistered.next rfl, ?_⟩
  show unmapMemory g'.toWorld = _
  rw [hworld]
  rfl

/-- `dev_watchdog_stop`, and what follows it. -/
theorem solo_stop {k : AfterStop} (hrun : Runs exec s (.store g.priv.toFlags (.stop k), g))
    (halone : g.Alone) :
    ∃ g' : Shared T σ, Runs exec s (k.pc, g') ∧ g'.toWorld = devWatchdogStop g.toWorld ∧
      g'.Alone := by
  have hcleared : Runs exec s (.sync k, g.on clearRunning) := solo_store hrun
  exact ⟨_, hcleared.next (if_pos halone.handler), rfl, halone.handler, halone.queued,
    halone.working⟩

/-- **Remove**, also as the end of a probe. -/
theorem solo_remove {ret : Int} (hrun : Runs exec s (.stop ret, g)) (halone : g.Alone) :
    ∃ g' : Shared T σ, Runs exec s (.returned ret, g') ∧
      g'.toWorld = devWatchdogRemove g.toWorld := by
  obtain ⟨g₁, hrun₁, hworld₁, halone₁⟩ := solo_stop (k := .tearDown ret) (hrun.next rfl) halone
  obtain ⟨g₂, hrun₂, hworld₂⟩ := solo_tearDown hrun₁ halone₁
  refine ⟨g₂, hrun₂, ?_⟩
  rw [hworld₂, hworld₁, devWatchdogRemove]

theorem Shared.Alone.on {f : World σ → World σ} (h : g.Alone) : (g.on f).Alone :=
  ⟨h.handler, h.queued, h.working⟩

theorem solo_readEnable {env : ProbeEnv} (hrun : Runs exec s (.probe env .readEnable, g)) :
    ∃ g' : Shared T σ, Runs exec s (.returned 0, g') ∧
      g'.toWorld = devWatchdogReadEnable exec g.toWorld := by
  have hunknown : Runs exec s (.probe env .readState, g.on (setState .unknown)) :=
    solo_store (a := .unknown env) (hrun.next rfl)
  unfold devWatchdogReadEnable
  dsimp only
  split
  · next henable =>
    have hread := hunknown.next (congrArg some (if_pos henable))
    exact ⟨_, solo_assign hread, rfl⟩
  · next henable => exact ⟨_, hunknown.next (congrArg some (if_neg henable)), rfl⟩

/-- The end of a probe, from the workqueue on. -/
theorem solo_workqueue {env : ProbeEnv} (hrun : Runs exec s (.probe env .workqueue, g))
    (halone : g.Alone) {out : Int × World σ}
    (hout : (if (setWorkqueue env g.toWorld).priv.workqueue = none then
        (env.miscRegister, devWatchdogRemove (setWorkqueue env g.toWorld))
      else (0, devWatchdogReadEnable exec (setWorkqueue env g.toWorld))) = out) :
    ∃ g' : Shared T σ, Runs exec s (.returned out.1, g') ∧ g'.toWorld = out.2 := by
  subst hout
  by_cases hnull : (setWorkqueue env g.toWorld).priv.workqueue = none
  · rw [if_pos hnull]
    have hfailed : Runs exec s (.stop env.miscRegister, g.on (setWorkqueue env)) :=
      hrun.next (congrArg some (if_pos hnull))
    have hremoved := solo_remove hfailed halone.on
    exact hremoved
  · rw [if_neg hnull]
    have hcreated : Runs exec s
        (.probe env .readEnable, { g.on (setWorkqueue env) with phase := .armed }) :=
      hrun.next (congrArg some (if_neg hnull))
    exact solo_readEnable hcreated

/-- **Probe.** -/
theorem solo_probe {env : ProbeEnv} (hrun : Runs exec s (.probe env .check, g))
    (halone : g.Alone) :
    ∃ g' : Shared T σ,
      Runs exec s (.returned (devWatchdogProbe exec env g.toWorld).1, g') ∧
      g'.toWorld = (devWatchdogProbe exec env g.toWorld).2 := by
  unfold devWatchdogProbe
  split
  · next hmapped => exact ⟨_, hrun.next (congrArg some (if_pos hmapped)), rfl⟩
  · next hnew =>
    have hmap : Runs exec s (.probe env .map, g) := hrun.next (congrArg some (if_neg hnew))
    have hmapped := hmap.next rfl
    dsimp only
    split
    · next hnull =>
      rw [runProbe, if_pos hnull] at hmapped
      have hremoved := solo_remove hmapped halone.on
      exact hremoved
    · next hbase =>
      rw [runProbe, if_neg hbase] at hmapped
      have hprops := hmapped.next rfl
      split
      · next e herror =>
        have hpc : (getProps env watchdogProps (g.on (mapMemory env)).priv.props).1 = some e :=
          herror
        simp only [runProbe, hpc] at hprops
        have hremoved := solo_remove hprops halone.on.on
        exact hremoved
      · next herror =>
        have hpc : (getProps env watchdogProps (g.on (mapMemory env)).priv.props).1 = none :=
          herror
        simp only [runProbe, hpc] at hprops
        split
        · next hmisc =>
          have hfailed := hprops.next (congrArg some (if_pos hmisc))
          have hremoved := solo_remove hfailed halone.on.on
          exact hremoved
        · next hmisc =>
          have hregistered := solo_assign (hprops.next (congrArg some (if_neg hmisc)))
          have hfinished := solo_workqueue hregistered halone.on.on.on.on rfl
          exact hfinished

/-- **Commands.** -/
theorem solo_command {c : Command} {len : Nat} (hrun : Runs exec s (.command c len, g))
    (halone : g.Alone) :
    ∃ g' : Shared T σ, Runs exec s (.returned len, g') ∧
      g'.toWorld = c.execute exec g.toWorld := by
  cases c with
  | stop =>
    obtain ⟨g', hrun', hworld, -⟩ := solo_stop (hrun.next rfl) halone
    exact ⟨g', hrun', hworld⟩
  | kick => exact ⟨_, hrun.next rfl, rfl⟩
  | start => exact ⟨_, solo_store (a := .start len) (hrun.next rfl), rfl⟩
  | enable on =>
    show ∃ g' : Shared T σ, _ ∧ g'.toWorld = devWatchdogEnable exec on g.toWorld
    unfold devWatchdogEnable
    split
    · next henable =>
      have hset : Runs exec s (.readBack len, g.on (setEnable exec on)) :=
        hrun.next (if_pos henable)
      exact ⟨_, solo_assign (hset.next rfl), rfl⟩
    · next henable => exact ⟨g, hrun.next (if_neg henable), rfl⟩

/-- A write through a file descriptor. -/
theorem solo_write (t : T) (ret : Int) (c : Byte) (len : Nat) (halone : g.Alone) :
    ∃ (pc : Pc) (g' : Shared T σ), move exec t (.returned ret) g (.write c len) = some (pc, g) ∧
      Runs exec (pc, g)
        (.returned (returnValue (devWatchdogWrite exec (some c) len g.toWorld).1), g') ∧
      g'.toWorld = (devWatchdogWrite exec (some c) len g.toWorld).2 := by
  simp only [move, devWatchdogWrite]
  cases Command.ofChar c with
  | none => exact ⟨_, g, rfl, .init, rfl⟩
  | some command =>
    obtain ⟨g', hrun, hworld⟩ := solo_command (c := command) .init halone
    exact ⟨_, g', rfl, hrun, hworld⟩

end System

end LinuxDeviceDriver.Watchdog
