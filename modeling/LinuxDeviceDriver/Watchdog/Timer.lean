import LinuxDeviceDriver.Watchdog.Resources
import LinuxDeviceDriver.Watchdog.System

/-!
# The kick timer and its flag

`priv.timer_running` is meant to say whether the timer is pending. The handler looks
at the flag first and re-arms the timer last, setting the flag again; a stop that
comes in between clears the flag too early and deletes the timer too late, and the
flag stays 1 for a timer that is not there. A start command in the middle of a stop
does the same. Work that the handler has queued is done after the stop. And an assignment to
`misc_registered` or `wd_state`, in the same byte, undoes a start or a stop that comes between its
load and its store.

What the steps do to the timer, the flag and the work item is `TimerStep`, a small
model of its own (`move_timer` connects it to the system). `dev_watchdog_timer_agrees`
holds for the runs in which nothing starts the timer during a stop, no work is left
when a stop returns, and the flag is written back as it is (`StopsApart`).
-/

namespace LinuxDeviceDriver.Watchdog

open Lib Generic

/-! ## The timer as the steps see it -/

/-- The flag, the timer, the handler, the work item, and the ghosts. -/
structure TimerView where
  running : Bool
  pending : Bool
  handler : Option Handler
  queued : Bool
  working : Bool
  stopped : Bool
  lateKick : Bool

/-- `del_timer_sync` is the next statement: the thread is in the middle of a stop. -/
def Pc.syncing : Pc → Bool
  | sync _ => true
  | _ => false

/-- What a step does to the timer. -/
inductive TimerStep (v : TimerView) : Pc → Event → Pc → TimerView → Prop
  | other {pc pc' : Pc} {e : Event} (hpc : pc'.syncing = pc.syncing) : TimerStep v pc e pc' v
  | clear {pc pc' : Pc} {e : Event} (hpc' : pc'.syncing = true) :
      TimerStep v pc e pc' { v with running := false }
  | writeBack {byte : Flags} {a : Assign} {pc' : Pc} (hkeeps : a.keepsTimer = true)
      (hpc' : pc'.syncing = false) :
      TimerStep v (.store byte a) .run pc' { v with running := byte.timerRunning }
  | synced {k : AfterStop} {pc' : Pc} (hpc' : pc'.syncing = false) (hhandler : v.handler = none) :
      TimerStep v (.sync k) .run pc' { v with pending := false, stopped := true }
  | start {byte : Flags} {ret : Int} {pc' : Pc} (hpc' : pc'.syncing = false) :
      TimerStep v (.store byte (.start ret)) .run pc'
        { v with running := true, pending := true, stopped := false }
  | expire {pc : Pc} {e : Event} (hpending : v.pending = true) (hhandler : v.handler = none) :
      TimerStep v pc e pc { v with pending := false, handler := some .test }
  | test {pc : Pc} {e : Event} (hhandler : v.handler = some .test) :
      TimerStep v pc e pc { v with handler := if v.running then some .act else none }
  | act {pc : Pc} {e : Event} {queued lateKick : Bool} (hhandler : v.handler = some .act)
      (hlate : v.stopped = false → lateKick = v.lateKick) :
      TimerStep v pc e pc
        { v with queued := queued, lateKick := lateKick, handler := some .restart }
  | load {pc : Pc} {byte : Flags} (hhandler : v.handler = some .restart) :
      TimerStep v pc .handler pc { v with handler := some (.store byte) }
  | restart {pc : Pc} {byte : Flags} (hhandler : v.handler = some (.store byte)) :
      TimerStep v pc .handler pc { v with running := true, pending := true, handler := none }
  | take {pc : Pc} {e : Event} (hqueued : v.queued = true) :
      TimerStep v pc e pc { v with queued := false, working := true }
  | work {pc : Pc} {e : Event} {lateKick : Bool} (hworking : v.working = true)
      (hlate : v.stopped = false → lateKick = v.lateKick) :
      TimerStep v pc e pc { v with working := false, lateKick := lateKick }

section Timer

variable {T σ : Type} {exec : (c : RegCmd) → σ → c.Answer × σ}

def Shared.timer (g : Shared T σ) : TimerView where
  running := g.priv.timerRunning
  pending := g.timerPending
  handler := g.handler
  queued := g.queued
  working := g.working
  stopped := g.stopped
  lateKick := g.lateKick

/-- The code has left the flag and the timer alone. -/
structure SameTimer (w w' : World σ) : Prop where
  running : w'.priv.timerRunning = w.priv.timerRunning
  pending : w'.timerPending = w.timerPending

theorem SameTimer.timer {f : World σ → World σ} {g : Shared T σ}
    (h : SameTimer g.toWorld (f g.toWorld)) : (g.on f).timer = g.timer := by
  simp only [Shared.timer, Shared.on, h.running, h.pending]

theorem release_sameTimer (r : Resource) (w : World σ) : SameTimer w (w.release r) := by
  unfold World.release
  split <;> exact ⟨rfl, rfl⟩

theorem destroyWorkqueue_sameTimer (w : World σ) : SameTimer w (destroyWorkqueue w) := by
  unfold destroyWorkqueue
  split
  · exact release_sameTimer _ w
  · exact ⟨rfl, rfl⟩

theorem unmapMemory_sameTimer (w : World σ) : SameTimer w (unmapMemory w) := by
  unfold unmapMemory
  split
  · next base _ =>
    exact ⟨(release_sameTimer (.mapping base) w).running,
      (release_sameTimer (.mapping base) w).pending⟩
  · exact ⟨rfl, rfl⟩

theorem mapMemory_sameTimer (env : ProbeEnv) (w : World σ) : SameTimer w (mapMemory env w) := by
  unfold mapMemory
  split <;> exact ⟨rfl, rfl⟩

theorem setWorkqueue_sameTimer (env : ProbeEnv) (w : World σ) :
    SameTimer w (setWorkqueue env w) := by
  unfold setWorkqueue
  split <;> exact ⟨rfl, rfl⟩

/-- The stages of a probe leave the timer alone. -/
theorem runProbe_timer {env : ProbeEnv} {g g' : Shared T σ} {stage : Stage} {pc' : Pc}
    (h : runProbe exec env g stage = (pc', g')) : pc'.syncing = false ∧ g'.timer = g.timer := by
  cases stage with
  | check =>
    simp only [runProbe] at h
    split at h <;>
    · cases h
      exact ⟨rfl, rfl⟩
  | map =>
    cases h
    refine ⟨?_, (mapMemory_sameTimer env g.toWorld).timer⟩
    split <;> rfl
  | props =>
    cases h
    refine ⟨?_, rfl⟩
    split <;> rfl
  | misc =>
    simp only [runProbe] at h
    split at h <;>
    · cases h
      exact ⟨rfl, rfl⟩
  | workqueue =>
    simp only [runProbe] at h
    split at h <;>
    · cases h
      exact ⟨rfl, (setWorkqueue_sameTimer env g.toWorld).timer⟩
  | readEnable =>
    cases h
    exact ⟨rfl, rfl⟩
  | readState =>
    simp only [runProbe] at h
    split at h <;>
    · cases h
      exact ⟨rfl, rfl⟩

theorem TimerStep.same {v v' : TimerView} {pc pc' : Pc} {e : Event}
    (hpc : pc'.syncing = pc.syncing) (hv : v' = v) : TimerStep v pc e pc' v' := by
  rw [hv]
  exact .other hpc

/-- The store of a byte. -/
theorem store_timer (g : Shared T σ) (byte : Flags) (a : Assign) :
    TimerStep g.timer (.store byte a) .run a.pc
      (a.mark (g.on fun w => a.write (w.reload byte))).timer := by
  cases a with
  | start ret => exact .start rfl
  | stop k => exact .clear rfl
  | register env => exact .writeBack rfl rfl
  | deregister ret => exact .writeBack rfl rfl
  | unknown env => exact .writeBack rfl rfl
  | state st k => cases k <;> exact .writeBack rfl rfl

/-- A statement of a thread. -/
theorem runThread_timer {g g' : Shared T σ} {pc pc' : Pc}
    (h : runThread exec g pc = some (pc', g')) : TimerStep g.timer pc .run pc' g'.timer := by
  cases pc with
  | returned ret => cases h
  | command c len =>
    cases c with
    | stop | kick | start =>
      cases h
      exact .other rfl
    | enable on =>
      simp only [runThread] at h
      split at h <;>
      · cases h
        exact .other rfl
  | readBack len =>
    cases h
    exact .other rfl
  | assign a =>
    cases h
    exact .other rfl
  | store byte a =>
    cases h
    exact store_timer g byte a
  | probe env stage =>
    obtain ⟨hpc, hsame⟩ := runProbe_timer (Option.some.inj h)
    exact .same hpc hsame
  | stop ret =>
    cases h
    exact .other rfl
  | sync k =>
    simp only [runThread] at h
    split at h
    · next hhandler =>
      cases h
      cases k <;> exact .synced rfl hhandler
    · cases h
  | destroy ret =>
    simp only [runThread] at h
    split at h
    · cases h
    · cases h
      exact .same rfl (destroyWorkqueue_sameTimer g.toWorld).timer
  | deregister ret =>
    simp only [runThread] at h
    split at h
    · cases h
      exact .same rfl (release_sameTimer .misc g.toWorld).timer
    · cases h
      exact .other rfl
  | unmap ret =>
    cases h
    exact .same rfl (unmapMemory_sameTimer g.toWorld).timer

theorem autoKick_onTime (exec : (c : RegCmd) → σ → c.Answer × σ) {g : Shared T σ}
    (h : g.stopped = false) :
    (g.autoKick exec).lateKick = g.lateKick := by
  simp [Shared.autoKick, h]

/-- A statement of the handler. -/
theorem runHandler_timer {g g' : Shared T σ} (h : runHandler exec g = some g') (pc : Pc) :
    TimerStep g.timer pc .handler pc g'.timer := by
  unfold runHandler at h
  split at h
  · cases h
  · next hhandler =>
    cases h
    exact .test hhandler
  · next hhandler =>
    cases h
    split
    · unfold Shared.queueWork
      split <;> exact .act hhandler fun _ => rfl
    · exact .act hhandler fun hgoing => autoKick_onTime exec hgoing
  · next hhandler =>
    cases h
    exact .load hhandler
  · next hhandler =>
    cases h
    exact .restart hhandler

/-- What every step does to the timer. -/
theorem move_timer {t : T} {pc pc' : Pc} {g g' : Shared T σ} {e : Event}
    (h : move exec t pc g e = some (pc', g')) : TimerStep g.timer pc e pc' g'.timer := by
  cases e with
  | write c len =>
    cases pc with
    | returned ret =>
      simp only [move] at h
      split at h <;>
      · cases h
        exact .other rfl
    | _ => cases h
  | probe env =>
    cases pc with
    | returned ret =>
      cases h
      exact .other rfl
    | _ => cases h
  | remove =>
    cases pc with
    | returned ret =>
      cases h
      exact .other rfl
    | _ => cases h
  | run => exact runThread_timer h
  | expire =>
    simp only [move] at h
    split at h
    · next hexpire =>
      cases h
      exact .expire hexpire.1 hexpire.2
    · cases h
  | handler =>
    obtain ⟨g₁, hrun, hout⟩ := Option.map_eq_some_iff.mp h
    cases hout
    exact runHandler_timer hrun pc
  | takeWork =>
    simp only [move] at h
    split at h
    · next htake =>
      cases h
      exact .take htake.1
    · cases h
  | work =>
    simp only [move] at h
    split at h
    · next hworking =>
      cases h
      exact .work hworking fun hgoing => autoKick_onTime exec hgoing
    · cases h

/-! ## The invariant -/

/-- Nothing starts the timer while a stop is under way, no work is left when a stop returns, and
`timer_running` is written back as it is. -/
structure StopsApart (s : Pool T Pc (Shared T σ)) (a : T × Event) : Prop where
  start : (∃ byte ret, a.2 = .run ∧ s.threads a.1 = .store byte (.start ret)) ∨
      (∃ byte, a.2 = .handler ∧ s.shared.handler = some (.store byte)) →
    ∀ t, (s.threads t).syncing = false
  synced : a.2 = .run → (s.threads a.1).syncing = true →
    s.shared.queued = false ∧ s.shared.working = false
  whole : a.2 = .run → (s.threads a.1).Whole s.shared.priv.timerRunning

/-- The flag against the timer. -/
structure TimerInv (threads : T → Pc) (v : TimerView) : Prop where
  /-- A stop has cleared the flag. -/
  cleared : ∀ t, (threads t).syncing = true → v.running = false
  /-- The handler was started by a timer that was meant to run. -/
  wanted : v.handler ≠ none → (∀ t, (threads t).syncing = false) → v.running = true
  agrees : v.handler = none → (∀ t, (threads t).syncing = false) →
    (v.running = true ↔ v.pending = true)
  idle : v.stopped = true → v.running = false ∧ v.pending = false ∧ v.handler = none ∧
    v.queued = false ∧ v.working = false
  onTime : v.lateKick = false

variable {threads : T → Pc} {v v' : TimerView}

/-- `dev_watchdog_start` with no stop under way, from a command or at the end of the handler. -/
theorem TimerInv.start (h : TimerInv threads v) (hnone : ∀ u, (threads u).syncing = false)
    {handler : Option Handler} {stopped : Bool} (hstopped : stopped = false) :
    TimerInv threads
      { v with running := true, pending := true, handler := handler, stopped := stopped } := by
  refine ⟨fun u hu => ?_, fun _ _ => rfl, fun _ _ => Iff.rfl, fun h' => ?_, h.onTime⟩
  · rw [hnone u] at hu
    cases hu
  · rw [hstopped] at h'
    cases h'

/-- While the handler executes, or work is to be done, no stop has just returned. -/
theorem TimerInv.going (h : TimerInv threads v)
    (hbusy : v.pending = true ∨ v.handler ≠ none ∨ v.queued = true ∨ v.working = true) :
    v.stopped = false := by
  by_contra hstopped
  obtain ⟨-, hpending, hhandler, hqueued, hworking⟩ := h.idle (eq_true_of_ne_false hstopped)
  simp [hpending, hhandler, hqueued, hworking] at hbusy

/-- Steps of the timer and the worker while no stop has returned: what is left to show is the
flag against the timer. -/
theorem TimerInv.asynchronous (h : TimerInv threads v) (hgoing : v.stopped = false)
    (hrunning : v'.running = v.running) (hstopped : v'.stopped = v.stopped)
    (hlate : v'.lateKick = v.lateKick)
    (hwanted : v'.handler ≠ none → (∀ t, (threads t).syncing = false) → v.running = true)
    (hagrees : v'.handler = none → (∀ t, (threads t).syncing = false) →
      (v.running = true ↔ v'.pending = true)) : TimerInv threads v' := by
  refine ⟨fun u hu => ?_, ?_, ?_, fun h' => ?_, ?_⟩
  · rw [hrunning]
    exact h.cleared u hu
  · rw [hrunning]
    exact hwanted
  · rw [hrunning]
    exact hagrees
  · rw [hstopped, hgoing] at h'
    cases h'
  · rw [hlate]
    exact h.onTime

variable [DecidableEq T] {t : T} {pc' : Pc}

theorem syncing_update (h : pc'.syncing = (threads t).syncing) (u : T) :
    (Function.update threads t pc' u).syncing = (threads u).syncing :=
  (Function.forall_update_iff threads fun u pc => pc.syncing = (threads u).syncing).mpr
    ⟨h, fun _ _ => rfl⟩ u

/-- The threads move on without beginning or ending a stop. -/
theorem TimerInv.others (h : TimerInv threads v) (hpc : pc'.syncing = (threads t).syncing) :
    TimerInv (Function.update threads t pc') v := by
  have hsame := syncing_update hpc
  refine ⟨fun u hu => h.cleared u ?_, fun hhandler hnone => h.wanted hhandler fun u => ?_,
    fun hhandler hnone => h.agrees hhandler fun u => ?_, h.idle, h.onTime⟩
  · rw [← hsame]
    exact hu
  · rw [← hsame]
    exact hnone u
  · rw [← hsame]
    exact hnone u

/-- A stop clears the flag. Until it returns, nothing is said about the timer. -/
theorem TimerInv.clear (h : TimerInv threads v) (hpc' : pc'.syncing = true) :
    TimerInv (Function.update threads t pc') { v with running := false } := by
  have hsyncing : (Function.update threads t pc' t).syncing = true := by
    rw [Function.update_self, hpc']
  refine ⟨fun _ _ => rfl, fun _ hnone => ?_, fun _ hnone => ?_, fun hstopped => ?_, h.onTime⟩
  · rw [hnone t] at hsyncing
    cases hsyncing
  · rw [hnone t] at hsyncing
    cases hsyncing
  · exact ⟨rfl, (h.idle hstopped).2⟩

/-- A stop returns. -/
theorem TimerInv.synced (h : TimerInv threads v) (hpc : (threads t).syncing = true)
    (hhandler : v.handler = none) (hqueued : v.queued = false) (hworking : v.working = false) :
    TimerInv (Function.update threads t pc') { v with pending := false, stopped := true } := by
  have hrunning : v.running = false := h.cleared t hpc
  refine ⟨fun _ _ => hrunning, fun hbusy => absurd hhandler hbusy, fun _ _ => ?_,
    fun _ => ⟨hrunning, rfl, hhandler, hqueued, hworking⟩, h.onTime⟩
  simp [hrunning]

/-- **Every step.** -/
theorem TimerInv.step (h : TimerInv threads v) {pc : Pc} {e : Event} (hpc : threads t = pc)
    (hstep : TimerStep v pc e pc' v')
    (hstart : (∃ byte ret, e = .run ∧ pc = .store byte (.start ret)) ∨
      (∃ byte, e = .handler ∧ v.handler = some (.store byte)) → ∀ u, (threads u).syncing = false)
    (hsynced : e = .run → pc.syncing = true → v.queued = false ∧ v.working = false)
    (hwhole : e = .run → pc.Whole v.running) :
    TimerInv (Function.update threads t pc') v' := by
  have hstay : Function.update threads t pc = threads := by
    rw [← hpc, Function.update_eq_self]
  cases hstep with
  | other hsame => exact h.others (by rw [hsame, hpc])
  | clear hpc' => exact h.clear hpc'
  | writeBack hkeeps hpc' =>
    rw [hwhole rfl hkeeps]
    exact h.others (by rw [hpc', hpc]; rfl)
  | synced hpc' hhandler =>
    obtain ⟨hqueued, hworking⟩ := hsynced rfl rfl
    exact h.synced (by rw [hpc]; rfl) hhandler hqueued hworking
  | start hpc' =>
    have hstarted : TimerInv threads
        { v with running := true, pending := true, stopped := false } :=
      h.start (hstart (.inl ⟨_, _, rfl, rfl⟩)) rfl
    exact hstarted.others (by rw [hpc', hpc]; rfl)
  | expire hpending hhandler =>
    rw [hstay]
    refine h.asynchronous (h.going (.inl hpending)) rfl rfl rfl (fun _ hnone => ?_)
      fun hnot => by cases hnot
    exact (h.agrees hhandler hnone).mpr hpending
  | test hhandler =>
    rw [hstay]
    have hbusy : v.handler ≠ none := by simp [hhandler]
    refine h.asynchronous (h.going (.inr (.inl hbusy))) rfl rfl rfl (fun _ => h.wanted hbusy)
      fun hleft hnone => ?_
    -- the handler leaves only when the flag is off, so some stop is under way
    rw [h.wanted hbusy hnone] at hleft
    cases hleft
  | act hhandler hlate =>
    rw [hstay]
    have hbusy : v.handler ≠ none := by simp [hhandler]
    have hgoing := h.going (.inr (.inl hbusy))
    exact h.asynchronous hgoing rfl rfl (hlate hgoing) (fun _ => h.wanted hbusy)
      fun hnot => by cases hnot
  | load hhandler =>
    rw [hstay]
    have hbusy : v.handler ≠ none := by simp [hhandler]
    exact h.asynchronous (h.going (.inr (.inl hbusy))) rfl rfl rfl (fun _ => h.wanted hbusy)
      fun hnot => by cases hnot
  | restart hhandler =>
    rw [hstay]
    have hbusy : v.handler ≠ none := by simp [hhandler]
    exact h.start (hstart (.inr ⟨_, rfl, hhandler⟩)) (h.going (.inr (.inl hbusy)))
  | take hqueued =>
    rw [hstay]
    exact h.asynchronous (h.going (.inr (.inr (.inl hqueued)))) rfl rfl rfl h.wanted h.agrees
  | work hworking hlate =>
    rw [hstay]
    have hgoing := h.going (.inr (.inr (.inr hworking)))
    exact h.asynchronous hgoing rfl rfl (hlate hgoing) h.wanted h.agrees

theorem reach_timerInv {regs : σ} {s : Pool T Pc (Shared T σ)}
    (hrun : Reach (Pool.step (move exec)) StopsApart (boot regs) s) :
    TimerInv s.threads s.shared.timer := by
  refine hrun.invariant (I := fun s => TimerInv s.threads s.shared.timer) ?_ ?_
  · exact ⟨nofun, nofun, fun _ _ => Iff.rfl, nofun, rfl⟩
  · intro s a s' hI hguard hstep
    obtain ⟨pc', g', hmove, rfl⟩ := Pool.step_cases hstep
    exact hI.step rfl (move_timer hmove) hguard.start hguard.synced hguard.whole

/-- `dev_watchdog_read` then tells whether the timer is pending. -/
theorem read_tells_pending {regs : σ} {s : Pool T Pc (Shared T σ)}
    (hrun : Reach (Pool.step (move exec)) StopsApart (boot regs) s)
    (hhandler : s.shared.handler = none) (hnone : ∀ t, (s.threads t).syncing = false) :
    (devWatchdogRead true true s.shared.toWorld).1 =
      .ok ("t=" ++ toString s.shared.timerPending.toNat ++ " s=" ++
        toString s.shared.priv.wdState.str.front ++ "\n") := by
  have hagrees : s.shared.priv.timerRunning = s.shared.timerPending :=
    Bool.eq_iff_iff.mpr ((reach_timerInv hrun).agrees hhandler hnone)
  simp only [devWatchdogRead, if_true, hagrees]

end Timer

/-! ## One thread and the timer -/

/-- The guard, for a single thread. -/
def apart (s : Pool Unit Pc (Shared Unit (BitVec 64))) (a : Unit × Event) : Bool :=
  match a.2 with
  | .run =>
    (!(s.threads ()).syncing || (!s.shared.queued && !s.shared.working)) &&
      decide ((s.threads ()).Whole s.shared.priv.timerRunning)
  | .handler => !(s.threads ()).syncing
  | _ => true

end LinuxDeviceDriver.Watchdog
