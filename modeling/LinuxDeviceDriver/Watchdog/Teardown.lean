import LinuxDeviceDriver.Lib.Mutex
import LinuxDeviceDriver.Watchdog.Timer

/-!
# Remove against everything else

Remove stops the timer, destroys the workqueue, deregisters the device and unmaps the
registers, in this order, and an open file descriptor takes commands all the time. A start
command behind the stop sets the timer going again, and its handler finds the workqueue
destroyed; a kick or enable command behind the unmap goes to address 0 plus the offset.

`Considerate` excludes just these commands, and calls of probe and remove that overlap.
What is left is safe (`dev_watchdog_no_stray_access`), and the reason is the order of the
statements: the timer and its handler live only in the armed phase, work only up to the
return of `destroy_workqueue`, and for so long the registers are mapped and the workqueue
is there (`PhaseInv`).
-/

namespace LinuxDeviceDriver.Watchdog

open Lib Generic

/-- The assignment is one of a probe or a remove. -/
def Assign.inCore : Assign → Bool
  | start _ => false
  | stop (.back _) => false
  | state _ (.back _) => false
  | _ => true

/-- The thread is in a probe or a remove. -/
def Pc.inCore : Pc → Bool
  | assign a => a.inCore
  | store _ a => a.inCore
  | probe _ _ => true
  | stop _ => true
  | sync (.tearDown _) => true
  | destroy _ => true
  | deregister _ => true
  | unmap _ => true
  | _ => false

/-- The next statement of a command accesses a register. -/
def Pc.accesses (priv : Priv) : Pc → Bool
  | command .kick _ => true
  | command (.enable _) _ => priv.hasEnable
  | readBack _ => true
  | _ => false

section Teardown

variable {T σ : Type}

/-- Probes and removes do not overlap. Commands access registers only while `priv.reg_base` is
not `NULL`, and start the timer (behind the store of `timer_running`) only in the armed phase. -/
structure Considerate (s : Pool T Pc (Shared T σ)) (a : T × Event) : Prop where
  apart : (∃ env, a.2 = .probe env) ∨ a.2 = .remove → s.shared.core = none
  access : a.2 = .run → (s.threads a.1).accesses s.shared.priv = true →
    s.shared.priv.regBase ≠ none
  start : a.2 = .run → ∀ byte ret, s.threads a.1 = .store byte (.start ret) →
    s.shared.phase = .armed

/-! ## The registers -/

/-- Nothing has been used that was not there. -/
def World.Clean (w : World σ) : Prop := .access ∉ w.faults ∧ .queue ∉ w.faults

/-- `priv.reg_base` points to a mapping, if anywhere. -/
structure World.Sound (w : World σ) : Prop where
  mapped : ∀ base, w.priv.regBase = some base → .mapping base ∈ w.held
  clean : w.Clean

variable (exec : (c : RegCmd) → σ → c.Answer × σ) {w : World σ}

theorem World.Sound.touch {α : Type} (h : w.Sound) (hbase : w.priv.regBase ≠ none)
    (p : RegProg α) : (w.touch exec p).2.Sound := by
  obtain ⟨base, hbase⟩ := Option.ne_none_iff_exists'.mp hbase
  have hmapped : w.mapped = true := by
    simp [World.mapped, hbase, h.mapped base hbase]
  refine ⟨h.mapped, ?_⟩
  simp only [World.Clean, World.touch, hmapped, if_true]
  exact h.clean

theorem World.Clean.release (h : w.Clean) (r : Resource) : (w.release r).Clean := by
  unfold World.release
  split
  · exact h
  · simpa [World.Clean] using h

/-- The mapping outlives the release of anything else. -/
theorem World.Sound.release (h : w.Sound) {r : Resource} (hr : ∀ base, r ≠ .mapping base) :
    (w.release r).Sound := by
  refine ⟨?_, h.clean.release r⟩
  unfold World.release
  split
  · intro base hbase
    exact (List.mem_erase_of_ne (hr base).symm).mpr (h.mapped base hbase)
  · exact h.mapped

theorem World.Sound.mapMemory (h : w.Sound) (env : ProbeEnv) : (mapMemory env w).Sound := by
  unfold Watchdog.mapMemory
  split
  · refine ⟨?_, h.clean⟩
    rintro base ⟨⟩
    exact List.mem_cons_self
  · exact ⟨nofun, h.clean⟩

theorem World.Sound.acquire (h : w.Sound) (r : Resource) : (w.acquire r).Sound :=
  ⟨fun base hbase => List.mem_cons_of_mem r (h.mapped base hbase), h.clean⟩

theorem World.Sound.setWorkqueue (h : w.Sound) (env : ProbeEnv) : (setWorkqueue env w).Sound := by
  unfold Watchdog.setWorkqueue
  split
  · next q _ => exact ⟨(h.acquire (.workqueue q)).mapped, h.clean⟩
  · exact ⟨h.mapped, h.clean⟩

theorem World.Sound.destroyWorkqueue (h : w.Sound) : (destroyWorkqueue w).Sound := by
  unfold Watchdog.destroyWorkqueue
  split
  · exact h.release nofun
  · exact h

theorem World.Sound.unmapMemory (h : w.Sound) : (unmapMemory w).Sound := by
  unfold Watchdog.unmapMemory
  split
  · exact ⟨nofun, h.clean.release _⟩
  · exact h

/-! ## The phases -/

/-- The registers are mapped and the workqueue is there. -/
structure World.Live (w : World σ) : Prop where
  base : w.priv.regBase ≠ none
  queue : w.hasQueue = true

def Shared.Ticking (g : Shared T σ) : Prop := g.timerPending = true ∨ g.handler ≠ none

def Shared.Busy (g : Shared T σ) : Prop := g.queued = true ∨ g.working = true

/-- What may go on in which phase. -/
structure PhaseInv (g : Shared T σ) : Prop where
  armed : g.phase = .armed → g.Live
  ticking : g.Ticking → g.phase = .armed
  busy : g.Busy → g.phase ≠ .quiet ∧ g.Live

variable {g g' : Shared T σ}

theorem PhaseInv.still (h : PhaseInv g) (hquiet : g.phase = .quiet) :
    ¬ g.Ticking ∧ ¬ g.Busy := by
  refine ⟨fun hticking => ?_, fun hbusy => (h.busy hbusy).1 hquiet⟩
  have harmed := h.ticking hticking
  rw [hquiet] at harmed
  cases harmed

/-- Both halves. -/
structure Safe (g : Shared T σ) : Prop where
  sound : g.Sound
  phase : PhaseInv g

/-! ## Commands, the handler and the worker -/

/-- What only probe and remove change. -/
structure Holdings (T : Type) where
  core : Option T
  phase : Phase
  base : Option Iomem
  workqueue : Option Nat
  held : List Resource

def Shared.holdings (g : Shared T σ) : Holdings T :=
  ⟨g.core, g.phase, g.priv.regBase, g.priv.workqueue, g.held⟩

/-- What goes on beside probe and remove: resources stay as they are, work comes from the
handler, and the timer from itself or from a start in the armed phase. -/
structure Beside (g g' : Shared T σ) : Prop where
  holdings : g'.holdings = g.holdings
  ticking : g'.Ticking → g.Ticking ∨ g.phase = .armed
  busy : g'.Busy → g.Busy ∨ g.Ticking
  clean : g'.Clean

theorem Beside.core (h : Beside g g') : g'.core = g.core := congrArg Holdings.core h.holdings

theorem Beside.phase (h : Beside g g') : g'.phase = g.phase := congrArg Holdings.phase h.holdings

theorem Beside.base (h : Beside g g') : g'.priv.regBase = g.priv.regBase :=
  congrArg Holdings.base h.holdings

theorem Beside.held (h : Beside g g') : g'.held = g.held := congrArg Holdings.held h.holdings

theorem Beside.live (h : Beside g g') (hlive : g.Live) : g'.Live := by
  refine ⟨?_, ?_⟩
  · rw [h.base]
    exact hlive.base
  · unfold World.hasQueue
    rw [show g'.priv.workqueue = g.priv.workqueue from congrArg Holdings.workqueue h.holdings,
      h.held]
    exact hlive.queue

theorem Safe.beside (h : Safe g) (hstep : Beside g g') : Safe g' := by
  refine ⟨⟨?_, hstep.clean⟩, ?_, ?_, ?_⟩
  · rw [hstep.base, hstep.held]
    exact h.sound.mapped
  · rw [hstep.phase]
    exact fun harmed => hstep.live (h.phase.armed harmed)
  · rw [hstep.phase]
    intro hticking
    rcases hstep.ticking hticking with hwas | harmed
    · exact h.phase.ticking hwas
    · exact harmed
  · rw [hstep.phase]
    intro hbusy
    rcases hstep.busy hbusy with hwas | hwas
    · exact ⟨(h.phase.busy hwas).1, hstep.live (h.phase.busy hwas).2⟩
    · have harmed := h.phase.ticking hwas
      exact ⟨by simp [harmed], hstep.live (h.phase.armed harmed)⟩

/-- The kick of the handler or of the worker. -/
theorem Safe.autoKick (h : Safe g) (hlive : g.Live) : (g.autoKick exec).Clean :=
  (h.sound.touch exec hlive.base (writeKick g.priv)).clean

/-- A command. -/
theorem Safe.command (h : Safe g) {c : Command} {len : Nat} {pc' : Pc}
    (haccess : (Pc.command c len).accesses g.priv = true → g.priv.regBase ≠ none)
    (hrun : runThread exec g (.command c len) = some (pc', g')) :
    pc'.inCore = false ∧ Beside g g' := by
  cases c with
  | stop | start =>
    cases hrun
    exact ⟨rfl, rfl, .inl, .inl, h.sound.clean⟩
  | kick =>
    have hkicked := h.sound.touch exec (haccess rfl) (writeKick g.priv)
    cases hrun
    exact ⟨rfl, rfl, .inl, .inl, hkicked.clean⟩
  | enable on =>
    simp only [runThread] at hrun
    split at hrun
    · next henable =>
      have hset := h.sound.touch exec (haccess henable) (writeEnable g.priv on)
      cases hrun
      exact ⟨rfl, rfl, .inl, .inl, hset.clean⟩
    · cases hrun
      exact ⟨rfl, rfl, .inl, .inl, h.sound.clean⟩

/-- The read of the state, by a command or a probe. -/
theorem Safe.fetchState (h : Safe g) (hbase : g.priv.regBase ≠ none) :
    Beside g (g.on fun w => (fetchState exec w).2) :=
  ⟨rfl, .inl, .inl, (h.sound.touch exec hbase (readEnable g.priv)).clean⟩

/-- The store of a byte, old or new: the bit fields hold nothing. -/
theorem Safe.store (h : Safe g) (byte : Flags) {a : Assign}
    (hstart : ∀ ret, a = .start ret → g.phase = .armed) :
    Beside g (g.on fun w => a.write (w.reload byte)) := by
  cases a with
  | start ret => exact ⟨rfl, fun _ => .inr (hstart ret rfl), .inl, h.sound.clean⟩
  | _ => exact ⟨rfl, .inl, .inl, h.sound.clean⟩

/-- The store of an assignment of a command. -/
theorem Safe.commandStore (h : Safe g) (byte : Flags) {a : Assign} (hout : a.inCore = false)
    (hstart : ∀ ret, a = .start ret → g.phase = .armed) :
    a.pc.inCore = false ∧ Beside g (a.mark (g.on fun w => a.write (w.reload byte))) := by
  have hstore := h.store byte hstart
  cases a with
  | start ret => exact ⟨rfl, hstore.holdings, hstore.ticking, hstore.busy, hstore.clean⟩
  | stop k =>
    cases k with
    | back ret => exact ⟨rfl, hstore⟩
    | tearDown ret => cases hout
  | state st k =>
    cases k with
    | back ret => exact ⟨rfl, hstore⟩
    | probed => cases hout
  | _ => cases hout

/-- The end of a stop command. -/
theorem Safe.synced (h : Safe g) : Beside g { g.on delTimerSync with stopped := true } := by
  refine ⟨rfl, ?_, .inl, h.sound.clean⟩
  rintro (hpending | hhandler)
  · cases hpending
  · exact .inl (.inr hhandler)

/-- While the handler executes, its workqueue and the registers are there. -/
theorem Safe.handler (h : Safe g) (hrun : runHandler exec g = some g') : Beside g g' := by
  have hticking : g.Ticking := by
    refine .inr fun hnone => ?_
    simp [runHandler, hnone] at hrun
  have hlive : g.Live := h.phase.armed (h.phase.ticking hticking)
  unfold runHandler at hrun
  split at hrun
  · cases hrun
  · cases hrun
    exact ⟨rfl, fun _ => .inl hticking, .inl, h.sound.clean⟩
  · cases hrun
    split
    · unfold Shared.queueWork
      rw [if_pos hlive.queue]
      exact ⟨rfl, fun _ => .inl hticking, fun _ => .inr hticking, h.sound.clean⟩
    · exact ⟨rfl, fun _ => .inl hticking, .inl, h.autoKick exec hlive⟩
  · cases hrun
    exact ⟨rfl, fun _ => .inl hticking, .inl, h.sound.clean⟩
  · cases hrun
    exact ⟨rfl, fun _ => .inl hticking, .inl, h.sound.clean⟩

/-! ## Probe and remove -/

/-- What is known at each assignment of a probe or a remove. -/
def Assign.Stands (phase : Phase) (base : Option Iomem) : Assign → Prop
  | stop (.tearDown _) => phase ≠ .draining
  | register _ => phase = .quiet ∧ base ≠ none
  | deregister _ => phase = .quiet
  | unknown _ => phase = .armed
  | state _ .probed => phase = .armed
  | _ => True

/-- What is known at each statement of a probe or a remove. -/
def Stands (phase : Phase) (base : Option Iomem) : Pc → Prop
  | .assign a => a.Stands phase base
  | .store _ a => a.Stands phase base
  | .probe _ .check => phase ≠ .draining
  | .probe _ .map => phase = .quiet
  | .probe _ .props => phase = .quiet ∧ base ≠ none
  | .probe _ .misc => phase = .quiet ∧ base ≠ none
  | .probe _ .workqueue => phase = .quiet ∧ base ≠ none
  | .probe _ .readEnable => phase = .armed
  | .probe _ .readState => phase = .armed
  | .stop _ => phase ≠ .draining
  | .sync (.tearDown _) => phase ≠ .draining
  | .destroy _ => phase = .draining
  | .deregister _ => phase = .quiet
  | .unmap _ => phase = .quiet
  | _ => True

theorem Assign.stands_of_outside {a : Assign} (h : a.inCore = false) (phase : Phase)
    (base : Option Iomem) : a.Stands phase base := by
  cases a with
  | start ret => trivial
  | stop k =>
    cases k with
    | back ret => trivial
    | tearDown ret => cases h
  | state st k =>
    cases k with
    | back ret => trivial
    | probed => cases h
  | _ => cases h

theorem stands_of_outside {pc : Pc} (h : pc.inCore = false) (phase : Phase)
    (base : Option Iomem) : Stands phase base pc := by
  cases pc with
  | sync k =>
    cases k with
    | back ret => trivial
    | tearDown ret => cases h
  | returned ret => trivial
  | command c len => trivial
  | readBack len => trivial
  | assign a => exact Assign.stands_of_outside h phase base
  | store byte a => exact Assign.stands_of_outside h phase base
  | _ => cases h

/-- A statement of a probe or a remove: the thread goes on to a statement where it stands, or
returns. -/
structure Advances (g : Shared T σ) (pc' : Pc) (g' : Shared T σ) : Prop where
  safe : Safe g'
  stands : Stands g'.phase g'.priv.regBase pc'
  core : pc'.inCore = true ∧ g'.core = g.core ∨
    pc'.inCore = false ∧ g'.core = none ∧ g'.phase ≠ .draining

/-- Before there is a workqueue, and behind it, nothing goes on beside. -/
theorem Safe.quietly {f : World σ → World σ} (h : Safe g) (hquiet : g.phase = .quiet)
    (hsound : (f g.toWorld).Sound) (hsame : SameTimer g.toWorld (f g.toWorld)) :
    Safe (g.on f) := by
  obtain ⟨hnotick, hidle⟩ := h.phase.still hquiet
  refine ⟨hsound, fun harmed => ?_, fun h' => absurd (h'.imp_left hsame.pending.symm.trans) hnotick,
    fun h' => absurd h' hidle⟩
  have harmed : g.phase = .armed := harmed
  rw [hquiet] at harmed
  cases harmed

theorem Safe.handOver (h : Safe g) (owner : Option T) : Safe { g with core := owner } :=
  ⟨h.sound, h.phase.armed, h.phase.ticking, h.phase.busy⟩

/-- The new workqueue is there. -/
theorem setWorkqueue_live (env : ProbeEnv) (hbase : w.priv.regBase ≠ none)
    (hcreated : (setWorkqueue env w).priv.workqueue ≠ none) : (setWorkqueue env w).Live := by
  unfold setWorkqueue at hcreated ⊢
  split
  · exact ⟨hbase, by simp [World.hasQueue, World.acquire]⟩
  · next hfailed => simp [hfailed] at hcreated

/-- The stages of a probe. -/
theorem Safe.probe (h : Safe g) {env : ProbeEnv} {stage : Stage} {pc' : Pc}
    (hstands : Stands g.phase g.priv.regBase (.probe env stage))
    (hrun : runProbe exec env g stage = (pc', g')) : Advances g pc' g' := by
  cases stage with
  | check =>
    simp only [runProbe] at hrun
    split at hrun
    · cases hrun
      exact ⟨h.handOver none, trivial, .inr ⟨rfl, rfl, hstands⟩⟩
    · next hnew =>
      cases hrun
      refine ⟨h, ?_, .inl ⟨rfl, rfl⟩⟩
      -- in the armed phase the registers are mapped, and the probe is turned away
      cases hphase : g.phase with
      | quiet => rfl
      | armed => exact absurd (h.phase.armed hphase).base hnew
      | draining => exact absurd hphase hstands
  | map =>
    have hsafe := h.quietly hstands (h.sound.mapMemory env) (mapMemory_sameTimer env g.toWorld)
    have hquiet : g.phase = .quiet := hstands
    cases hrun
    split
    · exact ⟨hsafe, by simp [Stands, Shared.on, hquiet], .inl ⟨rfl, rfl⟩⟩
    · next hmapped => exact ⟨hsafe, ⟨hstands, hmapped⟩, .inl ⟨rfl, rfl⟩⟩
  | props =>
    have hsafe : Safe (g.on (setProps env)) :=
      h.quietly hstands.1 ⟨h.sound.mapped, h.sound.clean⟩ ⟨rfl, rfl⟩
    cases hrun
    split
    · exact ⟨hsafe, by simp [Stands, Shared.on, hstands.1], .inl ⟨rfl, rfl⟩⟩
    · exact ⟨hsafe, hstands, .inl ⟨rfl, rfl⟩⟩
  | misc =>
    simp only [runProbe] at hrun
    split at hrun
    · cases hrun
      exact ⟨h, by simp [Stands, hstands.1], .inl ⟨rfl, rfl⟩⟩
    · cases hrun
      exact ⟨h.quietly hstands.1 (h.sound.acquire .misc) ⟨rfl, rfl⟩, hstands, .inl ⟨rfl, rfl⟩⟩
  | workqueue =>
    have hsafe := h.quietly hstands.1 (h.sound.setWorkqueue env)
      (setWorkqueue_sameTimer env g.toWorld)
    simp only [runProbe] at hrun
    split at hrun
    · cases hrun
      exact ⟨hsafe, by simp [Stands, Shared.on, hstands.1], .inl ⟨rfl, rfl⟩⟩
    · next hcreated =>
      cases hrun
      obtain ⟨hnotick, hidle⟩ := hsafe.phase.still hstands.1
      refine ⟨⟨hsafe.sound, fun _ => setWorkqueue_live env hstands.2 hcreated,
        fun h' => absurd h' hnotick, fun h' => absurd h' hidle⟩, rfl, .inl ⟨rfl, rfl⟩⟩
  | readEnable =>
    cases hrun
    exact ⟨h, hstands, .inl ⟨rfl, rfl⟩⟩
  | readState =>
    have harmed : g.phase = .armed := hstands
    have hread := h.fetchState exec (h.phase.armed harmed).base
    simp only [runProbe] at hrun
    split at hrun
    · cases hrun
      exact ⟨h.beside hread, hstands, .inl ⟨rfl, rfl⟩⟩
    · cases hrun
      exact ⟨h.handOver none, trivial, .inr ⟨rfl, rfl, by simp [harmed]⟩⟩

/-- Behind `del_timer_sync` the timer is still. -/
theorem Safe.drain (h : Safe g) (hhandler : g.handler = none) :
    Safe { g.on delTimerSync with stopped := true, phase := .draining } := by
  refine ⟨⟨h.sound.mapped, h.sound.clean⟩, nofun, ?_, fun hbusy => ⟨nofun, ?_⟩⟩
  · rintro (hpending | hbusy)
    · cases hpending
    · exact absurd hhandler hbusy
  · exact ⟨(h.phase.busy hbusy).2.base, (h.phase.busy hbusy).2.queue⟩

/-- `destroy_workqueue` has waited for the work. -/
theorem Safe.destroy (h : Safe g) (hdraining : g.phase = .draining)
    (hwaited : ¬ (g.priv.workqueue ≠ none ∧ (g.queued ∨ g.working))) :
    Safe { g.on destroyWorkqueue with phase := .quiet } := by
  refine ⟨h.sound.destroyWorkqueue, nofun, fun hticking => ?_, fun hbusy => ?_⟩
  · have harmed := h.phase.ticking
      (hticking.imp_left (destroyWorkqueue_sameTimer g.toWorld).pending.symm.trans)
    rw [hdraining] at harmed
    cases harmed
  · -- work is left only as long as there is a workqueue, and then the thread still waits
    refine absurd ⟨fun hnull => ?_, hbusy⟩ hwaited
    have hqueue := (h.phase.busy hbusy).2.queue
    simp [World.hasQueue, hnull] at hqueue

/-- The store of an assignment of a probe or a remove. -/
theorem Safe.assign (h : Safe g) {a : Assign} (hcore : a.inCore = true)
    (hstands : a.Stands g.phase g.priv.regBase) (byte : Flags) :
    Advances g a.pc (a.mark (g.on fun w => a.write (w.reload byte))) := by
  have hsafe := h.beside (h.store byte (a := a) (by rintro ret rfl; cases hcore))
  cases a with
  | start ret => cases hcore
  | stop k =>
    cases k with
    | back ret => cases hcore
    | tearDown ret => exact ⟨hsafe, hstands, .inl ⟨rfl, rfl⟩⟩
  | register env => exact ⟨hsafe, hstands, .inl ⟨rfl, rfl⟩⟩
  | deregister ret => exact ⟨hsafe, hstands, .inl ⟨rfl, rfl⟩⟩
  | unknown env => exact ⟨hsafe, hstands, .inl ⟨rfl, rfl⟩⟩
  | state st k =>
    cases k with
    | back ret => cases hcore
    | probed =>
      have harmed : g.phase = .armed := hstands
      exact ⟨hsafe.handOver none, trivial,
        .inr ⟨rfl, rfl, by simp [Assign.mark, Shared.on, harmed]⟩⟩

/-- A statement of a probe or a remove. -/
theorem Safe.advance (h : Safe g) {pc pc' : Pc} (hcore : pc.inCore = true)
    (hstands : Stands g.phase g.priv.regBase pc)
    (hrun : runThread exec g pc = some (pc', g')) : Advances g pc' g' := by
  cases pc with
  | probe env stage => exact h.probe exec hstands (Option.some.inj hrun)
  | assign a =>
    cases hrun
    exact ⟨h, hstands, .inl ⟨hcore, rfl⟩⟩
  | store byte a =>
    cases hrun
    exact h.assign hcore hstands byte
  | stop ret =>
    cases hrun
    exact ⟨h, hstands, .inl ⟨rfl, rfl⟩⟩
  | sync k =>
    cases k with
    | back ret => cases hcore
    | tearDown ret =>
      simp only [runThread] at hrun
      split at hrun
      · next hhandler =>
        cases hrun
        exact ⟨h.drain hhandler, rfl, .inl ⟨rfl, rfl⟩⟩
      · cases hrun
  | destroy ret =>
    simp only [runThread] at hrun
    split at hrun
    · cases hrun
    · next hwaited =>
      cases hrun
      exact ⟨h.destroy hstands hwaited, rfl, .inl ⟨rfl, rfl⟩⟩
  | deregister ret =>
    have hreleased : (g.toWorld.release .misc).Sound := h.sound.release (by simp)
    have hsafe := h.quietly hstands hreleased (release_sameTimer .misc g.toWorld)
    simp only [runThread] at hrun
    split at hrun
    · cases hrun
      exact ⟨hsafe, hstands, .inl ⟨rfl, rfl⟩⟩
    · cases hrun
      exact ⟨h, hstands, .inl ⟨rfl, rfl⟩⟩
  | unmap ret =>
    have hquiet : g.phase = .quiet := hstands
    have hsafe := h.quietly hquiet h.sound.unmapMemory (unmapMemory_sameTimer g.toWorld)
    cases hrun
    exact ⟨hsafe.handOver none, trivial, .inr ⟨rfl, rfl, by simp [Shared.on, hquiet]⟩⟩
  | _ => cases hcore

/-! ## All threads -/

/-- Every thread stands where it should, and one at a time is in a probe or a remove. -/
structure Orderly (threads : T → Pc) (g : Shared T σ) : Prop where
  core : MutexInv Pc.inCore g.core threads
  free : g.core = none → g.phase ≠ .draining
  safe : Safe g
  stands : ∀ t, Stands g.phase g.priv.regBase (threads t)

variable [DecidableEq T] {threads : T → Pc} {t : T} {pc' : Pc}

/-- A step beside probe and remove. -/
theorem Orderly.beside (h : Orderly threads g) (hstep : Beside g g')
    (hpc : pc'.inCore = (threads t).inCore) (hstands : Stands g.phase g.priv.regBase pc') :
    Orderly (Function.update threads t pc') g' := by
  refine ⟨?_, ?_, h.safe.beside hstep, ?_⟩
  · rw [hstep.core]
    exact h.core.stay hpc
  · rw [hstep.core, hstep.phase]
    exact h.free
  · rw [hstep.phase, hstep.base]
    exact (Function.forall_update_iff _ fun _ pc => Stands _ _ pc).mpr
      ⟨hstands, fun u _ => h.stands u⟩

/-- A statement of a probe or a remove: all other threads are elsewhere. -/
theorem Orderly.advance (h : Orderly threads g) (hcore : (threads t).inCore = true)
    (hstep : Advances g pc' g') : Orderly (Function.update threads t pc') g' := by
  have hothers : ∀ u, u ≠ t → Stands g'.phase g'.priv.regBase (threads u) := by
    intro u hut
    refine stands_of_outside ?_ _ _
    by_contra hu
    exact hut (h.core.exclusive (eq_true_of_ne_false hu) hcore)
  refine ⟨?_, ?_, hstep.safe,
    (Function.forall_update_iff _ fun _ pc => Stands _ _ pc).mpr ⟨hstep.stands, hothers⟩⟩
  · rcases hstep.core with ⟨hin, howner⟩ | ⟨hout, howner, -⟩
    · rw [howner]
      exact h.core.stay (hin.trans hcore.symm)
    · rw [howner]
      exact h.core.release hcore hout
  · rcases hstep.core with ⟨-, howner⟩ | ⟨-, -, hphase⟩
    · rw [howner, (h.core t).mpr hcore]
      exact nofun
    · exact fun _ => hphase

/-- A probe or a remove begins. -/
theorem Orderly.enter (h : Orderly threads g) (hfree : g.core = none)
    (hcore : pc'.inCore = true) (hstands : Stands g.phase g.priv.regBase pc') :
    Orderly (Function.update threads t pc') { g with core := some t } :=
  ⟨h.core.acquire hfree hcore, nofun, h.safe.handOver (some t),
    (Function.forall_update_iff _ fun _ pc => Stands _ _ pc).mpr
      ⟨hstands, fun u _ => h.stands u⟩⟩

/-- A statement of a thread. -/
theorem Orderly.run (h : Orderly threads g) {pc : Pc} (hpc : threads t = pc)
    (haccess : pc.accesses g.priv = true → g.priv.regBase ≠ none)
    (hstart : ∀ byte ret, pc = .store byte (.start ret) → g.phase = .armed)
    (hrun : runThread exec g pc = some (pc', g')) :
    Orderly (Function.update threads t pc') g' := by
  have hstands := h.stands t
  rw [hpc] at hstands
  cases hcore : pc.inCore with
  | true =>
    exact h.advance (by rw [hpc, hcore]) (h.safe.advance exec hcore hstands hrun)
  | false =>
    have hstep : pc'.inCore = false ∧ Beside g g' := by
      cases pc with
      | returned ret => cases hrun
      | command c len => exact h.safe.command exec haccess hrun
      | readBack len =>
        have hread := h.safe.fetchState exec (haccess rfl)
        cases hrun
        exact ⟨rfl, hread⟩
      | assign a =>
        cases hrun
        exact ⟨hcore, rfl, .inl, .inl, h.safe.sound.clean⟩
      | store byte a =>
        have hstore := h.safe.commandStore byte hcore fun ret ha => hstart byte ret (by rw [ha])
        cases hrun
        exact hstore
      | sync k =>
        cases k with
        | back ret =>
          simp only [runThread] at hrun
          split at hrun
          · cases hrun
            exact ⟨rfl, h.safe.synced⟩
          · cases hrun
        | tearDown ret => cases hcore
      | _ => cases hcore
    refine h.beside hstep.2 ?_ (stands_of_outside hstep.1 _ _)
    rw [hpc, hcore, hstep.1]

/-- **Every step.** -/
theorem Orderly.step (h : Orderly threads g) {pc : Pc} {e : Event} (hpc : threads t = pc)
    (hapart : (∃ env, e = .probe env) ∨ e = .remove → g.core = none)
    (haccess : e = .run → pc.accesses g.priv = true → g.priv.regBase ≠ none)
    (hstart : e = .run → ∀ byte ret, pc = .store byte (.start ret) → g.phase = .armed)
    (hmove : move exec t pc g e = some (pc', g')) :
    Orderly (Function.update threads t pc') g' := by
  -- the timer and the worker move whatever the thread is doing
  have hkernel : ∀ {g₁ : Shared T σ}, Beside g g₁ →
      Orderly (Function.update threads t pc) g₁ := fun hstep =>
    h.beside hstep (by rw [hpc]) (hpc ▸ h.stands t)
  have hclean := h.safe.sound.clean
  cases e with
  | write c len =>
    cases pc with
    | returned ret =>
      have hsame : Beside g g := ⟨rfl, .inl, .inl, hclean⟩
      simp only [move] at hmove
      split at hmove <;>
      · cases hmove
        exact h.beside hsame (by rw [hpc]; rfl) trivial
    | _ => cases hmove
  | probe env =>
    have hfree := hapart (.inl ⟨env, rfl⟩)
    cases pc with
    | returned ret =>
      cases hmove
      exact h.enter hfree rfl (h.free hfree)
    | _ => cases hmove
  | remove =>
    have hfree := hapart (.inr rfl)
    cases pc with
    | returned ret =>
      cases hmove
      exact h.enter hfree rfl (h.free hfree)
    | _ => cases hmove
  | run => exact h.run exec hpc (haccess rfl) (hstart rfl) hmove
  | expire =>
    simp only [move] at hmove
    split at hmove
    · next hexpire =>
      cases hmove
      exact hkernel ⟨rfl, fun _ => .inl (.inl hexpire.1), .inl, hclean⟩
    · cases hmove
  | handler =>
    obtain ⟨g₁, hrun, hout⟩ := Option.map_eq_some_iff.mp hmove
    cases hout
    exact hkernel (h.safe.handler exec hrun)
  | takeWork =>
    simp only [move] at hmove
    split at hmove
    · next htake =>
      cases hmove
      exact hkernel ⟨rfl, .inl, fun _ => .inl (.inl htake.1), hclean⟩
    · cases hmove
  | work =>
    simp only [move] at hmove
    split at hmove
    · next hworking =>
      have hkicked := h.safe.autoKick exec (h.safe.phase.busy (.inr hworking)).2
      cases hmove
      exact hkernel ⟨rfl, .inl, fun _ => .inl (.inr hworking), hkicked⟩
    · cases hmove

variable {exec}

/-- **No stray access.** For any number of threads, in every run whose commands are
considerate, no register is accessed without a mapping (in particular none while
`priv.reg_base` is `NULL`), and no work is queued on a workqueue that is not there. -/
theorem dev_watchdog_no_stray_access {regs : σ} {s : Pool T Pc (Shared T σ)}
    (hrun : Reach (Pool.step (move exec)) Considerate (boot regs) s) :
    .access ∉ s.shared.faults ∧ .queue ∉ s.shared.faults := by
  have hinv : Orderly s.threads s.shared := by
    refine hrun.invariant (I := fun s => Orderly s.threads s.shared) ?_ ?_
    · refine ⟨fun _ => by simp [boot, Pc.inCore], nofun, ⟨⟨nofun, nofun, nofun⟩, nofun, ?_, ?_⟩,
        fun _ => trivial⟩
      · rintro (⟨⟨⟩⟩ | hbusy)
        exact absurd rfl hbusy
      · rintro (⟨⟨⟩⟩ | ⟨⟨⟩⟩)
    · intro s a s' hI hguard hstep
      obtain ⟨pc', g', hmove, rfl⟩ := Pool.step_cases hstep
      exact hI.step exec rfl hguard.apart hguard.access hguard.start hmove
  exact hinv.safe.sound.clean

end Teardown

/-! ## A device that is bound and removed -/

/-- The guard as a check. -/
def considerate (s : Pool Bool Pc (Shared Bool (BitVec 64))) (a : Bool × Event) : Bool :=
  match a.2 with
  | .probe _ => s.shared.core.isNone
  | .remove => s.shared.core.isNone
  | .run =>
    (!(s.threads a.1).accesses s.shared.priv || s.shared.priv.regBase.isSome) &&
      match s.threads a.1 with
      | .store _ (.start _) => s.shared.phase = .armed
      | _ => true
  | _ => true

theorem considerate_sound (s : Pool Bool Pc (Shared Bool (BitVec 64))) (a : Bool × Event)
    (h : considerate s a = true) : Considerate s a := by
  constructor
  · rintro (⟨env, he⟩ | he)
    · simpa [considerate, he] using h
    · simpa [considerate, he] using h
  · intro he haccess
    simp only [considerate, he, haccess, Bool.and_eq_true] at h
    simpa [Option.isSome_iff_ne_none] using h.1
  · intro he byte ret hpc
    simp only [considerate, he, hpc, Bool.and_eq_true] at h
    exact of_decide_eq_true h.2

/-- Thread `true` binds the device. -/
def bindDevice : List (Bool × Event) := (true, .probe goodEnv) :: List.replicate 12 (true, .run)

/-- Thread `true` removes the device, up to the return of `dev_watchdog_stop`. -/
def removeAndStop : List (Bool × Event) := (true, .remove) :: List.replicate 3 (true, .run)

/-- The timer expires just before the remove, and its work is done while `destroy_workqueue`
waits. -/
theorem dev_watchdog_no_stray_access_late_work :
    ∃ s, Reach (Pool.step (move (execReg singleRegister .zero))) Considerate
        (boot (T := Bool) 0) s ∧
      s.shared.priv.regBase = none ∧ .access ∉ s.shared.faults ∧ .queue ∉ s.shared.faults := by
  obtain ⟨s, hrun, hunmapped⟩ : ∃ s,
      runFrom (checked (Pool.step (move (execReg singleRegister .zero))) considerate) (boot 0)
        (bindDevice ++ [(false, .write 's'.toUInt8 1), (false, .run), (false, .run),
          (true, .expire)] ++ List.replicate 4 (true, .handler) ++ removeAndStop ++
          [(true, .takeWork), (true, .work)] ++ List.replicate 5 (true, .run)) = some s ∧
      s.shared.priv.regBase = none :=
    ⟨_, rfl, rfl⟩
  have hreach := reach_checked considerate_sound hrun
  exact ⟨s, hreach, hunmapped, dev_watchdog_no_stray_access hreach⟩

/-- A kick command behind the unmap goes to address 1, the bare offset. A start command behind
the stop lets the handler queue its work on the destroyed workqueue. -/
theorem dev_watchdog_stray_access :
    (∃ s, runFrom (Pool.step (move (execReg singleRegister .zero))) (boot 0)
        (bindDevice ++ removeAndStop ++ List.replicate 5 (true, .run) ++
          [(false, .write 'k'.toUInt8 1), (false, .run)]) = some s ∧
      s.shared.priv.regBase = none ∧ s.shared.faults = [.access]) ∧
    ∃ s, runFrom (Pool.step (move (execReg singleRegister .zero))) (boot 0)
        (bindDevice ++ removeAndStop ++ [(false, .write 's'.toUInt8 1), (false, .run),
          (false, .run), (true, .run), (true, .expire), (true, .handler), (true, .handler)]) =
          some s ∧
      s.shared.held = [.misc, .mapping 0x1000] ∧ s.shared.faults = [.queue] :=
  ⟨⟨_, rfl, rfl, rfl⟩, _, rfl, rfl, rfl⟩

end LinuxDeviceDriver.Watchdog
