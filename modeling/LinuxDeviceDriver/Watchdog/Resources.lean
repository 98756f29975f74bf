import LinuxDeviceDriver.Lib.Transition
import LinuxDeviceDriver.Watchdog.Device
import LinuxDeviceDriver.Generic.Masked

/-!
# What probe and remove acquire and release

`dev_watchdog_remove` is also the error path of `dev_watchdog_probe`. It finds out
what there is to release from the pointers and flags of the static struct, and does
not clear `priv.workqueue`. So a probe that fails before it creates the workqueue,
after an earlier remove, destroys the old workqueue once more. And a probe that fails
to create the workqueue returns the 0 that `misc_register` has left in `ret`.

`dev_watchdog_resources_iff` says that these two are all that goes wrong: a sequence
of probes and removes keeps the discipline exactly when neither happens.
-/

namespace LinuxDeviceDriver.Watchdog

open Lib Generic

/-! ## Sequences of probes and removes -/

/-- The driver, and the devices it is bound to: those whose probe has returned 0. -/
structure Driver (σ : Type) where
  world : World σ
  bound : List Nat

/-- What the driver core calls. -/
inductive Call
  | probe (dev : Nat) (env : ProbeEnv)
  | remove (dev : Nat)

section Sequences

variable {σ : Type} (exec : (c : RegCmd) → σ → c.Answer × σ)

def Driver.call (d : Driver σ) : Call → Driver σ
  | .probe dev env =>
    let out := devWatchdogProbe exec env d.world
    ⟨out.2, if out.1 = 0 then dev :: d.bound else d.bound⟩
  | .remove dev => ⟨devWatchdogRemove d.world, d.bound.erase dev⟩

/-- `misc_register` returns 0 or an error, and only bound devices are removed. -/
def Possible (d : Driver σ) : Call → Prop
  | .probe _ env => env.miscRegister ≤ 0
  | .remove dev => dev ∈ d.bound

/-- Nothing was released that was not held. -/
def World.NoRelease (w : World σ) : Prop := ∀ r, .released r ∉ w.faults

/-- A mapping, the misc registration and a workqueue are held, each once. -/
def World.AllHeld (w : World σ) : Prop :=
  ∃ base q, w.held = [.workqueue q, .misc, .mapping base]

/-- The discipline, for one call. -/
def Proper (d : Driver σ) (c : Call) : Prop :=
  (d.call exec c).world.NoRelease ∧
  match c with
  | .probe _ env =>
    -- a second device is turned away
    d.world.priv.regBase ≠ none ∧ (devWatchdogProbe exec env d.world).1 ≠ 0 ∨
    d.world.priv.regBase = none ∧
      ((devWatchdogProbe exec env d.world).1 = 0 ↔ (d.call exec c).world.AllHeld) ∧
      ((devWatchdogProbe exec env d.world).1 ≠ 0 → (d.call exec c).world.held = [])
  | .remove _ => (d.call exec c).world.held = []

/-- The probe comes as far as the workqueue. -/
def ReachesWorkqueue (env : ProbeEnv) (w : World σ) : Prop :=
  env.ofIomap ≠ none ∧ (getProps env watchdogProps w.priv.props).1 = none ∧ 0 ≤ env.miscRegister

/-- A probe is turned away, or creates its workqueue, or fails earlier while
`priv.workqueue` is `NULL`. -/
def Harmless (d : Driver σ) : Call → Prop
  | .probe _ env => d.world.priv.regBase ≠ none ∨
      ReachesWorkqueue env d.world ∧ env.createWorkqueue ≠ none ∨
      ¬ ReachesWorkqueue env d.world ∧ d.world.priv.workqueue = none
  | .remove _ => True

/-! ## Remove -/

/-- What the flag and the pointer of the struct say is held besides the workqueue. -/
def Priv.known (priv : Priv) : List Resource :=
  (if priv.miscRegistered then [.misc] else []) ++ priv.regBase.toList.map .mapping

/-- Nothing is held, and the struct knows it; `workqueue` may still point somewhere. -/
structure World.Free (w : World σ) : Prop where
  held : w.held = []
  regBase : w.priv.regBase = none
  misc : w.priv.miscRegistered = false

/-- Everything is held, and the struct knows it. -/
structure World.Taken (w : World σ) (base : Iomem) (q : Nat) : Prop where
  held : w.held = [.workqueue q, .misc, .mapping base]
  regBase : w.priv.regBase = some base
  misc : w.priv.miscRegistered = true
  workqueue : w.priv.workqueue = some q

/-- What a remove leaves that has released everything. -/
def World.cleared (w : World σ) : World σ :=
  { w with
    held := []
    timerPending := false
    priv.timerRunning := false
    priv.miscRegistered := false
    priv.regBase := none }

theorem World.cleared_free (w : World σ) : w.cleared.Free := ⟨rfl, rfl, rfl⟩

variable {w : World σ}

theorem World.release_head {r : Resource} {rest : List Resource} (h : w.held = r :: rest) :
    w.release r = { w with held := rest } := by
  simp [World.release, h]

theorem miscDeregister_eq {rest : List Resource}
    (h : w.held = (if w.priv.miscRegistered then [.misc] else []) ++ rest) :
    miscDeregister w = { w with held := rest, priv.miscRegistered := false } := by
  obtain ⟨⟨⟨misc, _, _⟩, _, _, _, _⟩, _, _, held, _⟩ := w
  cases misc with
  | false =>
    obtain rfl : held = rest := h
    rfl
  | true =>
    simp only [miscDeregister, World.release_head h, if_true]
    rfl

theorem unmapMemory_eq (h : w.held = w.priv.regBase.toList.map .mapping) :
    unmapMemory w = { w with held := [], priv.regBase := none } := by
  obtain ⟨⟨⟨_, _, _⟩, _, regBase, _, _⟩, _, _, held, _⟩ := w
  cases regBase with
  | none =>
    obtain rfl : held = [] := h
    rfl
  | some base =>
    simp only [unmapMemory, World.release_head h]
    rfl

/-- Remove behind the workqueue gives back what the struct knows of. -/
theorem giveBack_eq (h : w.held = w.priv.known) :
    unmapMemory (miscDeregister w) =
      { w with held := [], priv.miscRegistered := false, priv.regBase := none } := by
  rw [miscDeregister_eq h, unmapMemory_eq rfl]

/-- Remove without a workqueue: the rest is given back. -/
theorem remove_of_known (h : w.held = w.priv.known) (hq : w.priv.workqueue = none) :
    devWatchdogRemove w = w.cleared := by
  have hdestroy : destroyWorkqueue (devWatchdogStop w) = devWatchdogStop w := by
    simp only [destroyWorkqueue, devWatchdogStop, clearRunning, delTimerSync, hq]
  rw [devWatchdogRemove, tearDown, hdestroy]
  exact giveBack_eq h

/-- The pointer to the workqueue is an old one. -/
theorem remove_of_stale (h : w.held = w.priv.known) {q : Nat}
    (hq : w.priv.workqueue = some q) :
    devWatchdogRemove w =
      { w.cleared with faults := .released (.workqueue q) :: w.faults } := by
  have hnot : .workqueue q ∉ (devWatchdogStop w).held := by
    show .workqueue q ∉ w.held
    rw [h, Priv.known]
    cases w.priv.miscRegistered <;> simp
  have hdestroy : destroyWorkqueue (devWatchdogStop w) = { devWatchdogStop w with
      faults := .released (.workqueue q) :: w.faults } := by
    simp only [destroyWorkqueue, devWatchdogStop, clearRunning, delTimerSync, hq] at hnot ⊢
    exact if_neg hnot
  rw [devWatchdogRemove, tearDown, hdestroy]
  exact giveBack_eq h

/-- Remove of a bound device. -/
theorem remove_of_taken {base : Iomem} {q : Nat} (h : w.Taken base q) :
    devWatchdogRemove w = w.cleared := by
  have hdestroy : destroyWorkqueue (devWatchdogStop w) =
      { devWatchdogStop w with held := [.misc, .mapping base] } := by
    have hheld : (devWatchdogStop w).held = [.workqueue q, .misc, .mapping base] := h.held
    rw [← World.release_head hheld]
    simp only [destroyWorkqueue, devWatchdogStop, clearRunning, delTimerSync, h.workqueue]
  have hknown : [Resource.misc, .mapping base] = w.priv.known := by
    rw [Priv.known, h.misc, h.regBase]
    rfl
  rw [devWatchdogRemove, tearDown, hdestroy]
  exact giveBack_eq hknown

/-! ## Probe -/

variable {env : ProbeEnv}

/-- A second device. -/
theorem probe_of_mapped (env : ProbeEnv) (h : w.priv.regBase ≠ none) :
    devWatchdogProbe exec env w = (Errno.eio.neg, w) := if_pos h

theorem mapMemory_some {base : Iomem} (h : env.ofIomap = some base) (w : World σ) :
    mapMemory env w = { w.acquire (.mapping base) with priv.regBase := some base } := by
  simp only [mapMemory, h]

/-- A probe that fails on its way to the workqueue. -/
theorem probe_early (hfree : w.Free) (h : ¬ ReachesWorkqueue env w) :
    ∃ ret w₁, devWatchdogProbe exec env w = (ret, devWatchdogRemove w₁) ∧ ret < 0 ∧
      w₁.held = w₁.priv.known ∧ w₁.priv.workqueue = w.priv.workqueue ∧ w₁.faults = w.faults := by
  have hnew : ¬ w.priv.regBase ≠ none := not_not_intro hfree.regBase
  rw [devWatchdogProbe, if_neg hnew]
  cases hmap : env.ofIomap with
  | none =>
    have hw : mapMemory env w = { w with priv.regBase := none } := by simp only [mapMemory, hmap]
    rw [hw]
    refine ⟨_, _, if_pos rfl, Errno.neg_lt_zero _, ?_, rfl, rfl⟩
    show w.held = (if w.priv.miscRegistered then _ else _) ++ []
    rw [hfree.held, hfree.misc]
    rfl
  | some base =>
    have hw := mapMemory_some hmap w
    -- what is held when the properties have been looked at
    have hheld : (setProps env (mapMemory env w)).held =
        (setProps env (mapMemory env w)).priv.known := by
      rw [hw]
      show .mapping base :: w.held = (if w.priv.miscRegistered then _ else _) ++ [.mapping base]
      rw [hfree.held, hfree.misc]
      rfl
    have hmapped : ¬ (mapMemory env w).priv.regBase = none := by
      rw [hw]
      exact nofun
    have hsame : (setProps env (mapMemory env w)).priv.workqueue = w.priv.workqueue ∧
        (setProps env (mapMemory env w)).faults = w.faults := by
      rw [hw]
      exact ⟨rfl, rfl⟩
    have hprops : (mapMemory env w).priv.props = w.priv.props := by
      rw [hw]
      rfl
    dsimp only
    rw [if_neg hmapped, hprops]
    cases herror : (getProps env watchdogProps w.priv.props).1 with
    | some e => exact ⟨_, _, rfl, e.neg_lt_zero, hheld, hsame⟩
    | none =>
      have hmisc : env.miscRegister < 0 :=
        Int.not_le.mp fun hmisc => h ⟨by rw [hmap]; exact nofun, herror, hmisc⟩
      exact ⟨_, _, if_pos hmisc, hmisc, hheld, hsame⟩

/-- A probe that comes as far as the workqueue has the mapping and the misc device. -/
theorem probe_late (hfree : w.Free) (h : ReachesWorkqueue env w) :
    ∃ base w₁, w₁.held = [.misc, .mapping base] ∧ w₁.priv.regBase = some base ∧
      w₁.priv.miscRegistered = true ∧ w₁.faults = w.faults ∧
      devWatchdogProbe exec env w =
        if (setWorkqueue env w₁).priv.workqueue = none then
          (env.miscRegister, devWatchdogRemove (setWorkqueue env w₁))
        else (0, devWatchdogReadEnable exec (setWorkqueue env w₁)) := by
  obtain ⟨hmap, hprops, hmisc⟩ := h
  obtain ⟨base, hbase⟩ := Option.ne_none_iff_exists'.mp hmap
  have hw := mapMemory_some hbase w
  refine ⟨base, setMisc env (setProps env (mapMemory env w)), ?_, ?_, rfl, ?_, ?_⟩
  · rw [hw]
    show .misc :: .mapping base :: w.held = _
    rw [hfree.held]
  · rw [hw]
    rfl
  · rw [hw]
    rfl
  · have hnew : ¬ w.priv.regBase ≠ none := not_not_intro hfree.regBase
    have hmapped : ¬ (mapMemory env w).priv.regBase = none := by
      rw [hw]
      exact nofun
    have herror : (getProps env watchdogProps (mapMemory env w).priv.props).1 = none := by
      rw [hw]
      exact hprops
    rw [devWatchdogProbe, if_neg hnew]
    dsimp only
    rw [if_neg hmapped, herror]
    exact if_neg (Int.not_lt.mpr hmisc)

theorem World.Taken.readEnable {base : Iomem} {q : Nat} (h : w.Taken base q) :
    (devWatchdogReadEnable exec w).Taken base q := by
  unfold devWatchdogReadEnable
  dsimp only
  split <;> exact ⟨h.held, h.regBase, h.misc, h.workqueue⟩

theorem World.NoRelease.touch {α : Type} (h : w.NoRelease) (p : RegProg α) :
    (w.touch exec p).2.NoRelease := by
  intro r
  simp only [World.touch]
  split
  · exact h r
  · exact List.not_mem_cons_of_ne_of_not_mem nofun (h r)

theorem World.NoRelease.readEnable (h : w.NoRelease) :
    (devWatchdogReadEnable exec w).NoRelease := by
  have hunknown : (setState .unknown w).NoRelease := h
  unfold devWatchdogReadEnable
  dsimp only
  split
  · exact hunknown.touch exec (Watchdog.readEnable (setState .unknown w).priv)
  · exact h

/-! ## What becomes of a probe -/

/-- No workqueue: nothing is held any more, and the result is 0. -/
theorem probe_without_workqueue (hfree : w.Free) (hmisc : env.miscRegister ≤ 0)
    (hreach : ReachesWorkqueue env w) (hcreate : env.createWorkqueue = none) :
    ∃ w', devWatchdogProbe exec env w = (0, w') ∧ w'.Free := by
  obtain ⟨base, w₁, hheld, hbase, hreg, -, hprobe⟩ := probe_late exec hfree hreach
  have hw : setWorkqueue env w₁ = { w₁ with priv.workqueue := none } := by
    simp only [setWorkqueue, hcreate]
  have hknown : (setWorkqueue env w₁).held = (setWorkqueue env w₁).priv.known := by
    simp [hw, Priv.known, hheld, hbase, hreg]
  have hnull : (setWorkqueue env w₁).priv.workqueue = none := by rw [hw]
  rw [if_pos hnull, remove_of_known hknown hnull] at hprobe
  have hzero : env.miscRegister = 0 := Int.le_antisymm hmisc hreach.2.2
  rw [hzero] at hprobe
  exact ⟨_, hprobe, World.cleared_free _⟩

/-- Everything is there. -/
theorem probe_complete (hfree : w.Free) (hno : w.NoRelease) (hreach : ReachesWorkqueue env w)
    {q : Nat} (hcreate : env.createWorkqueue = some q) :
    ∃ base w', devWatchdogProbe exec env w = (0, w') ∧ w'.Taken base q ∧ w'.NoRelease := by
  obtain ⟨base, w₁, hheld, hbase, hreg, hfaults, hprobe⟩ := probe_late exec hfree hreach
  have hw : setWorkqueue env w₁ =
      { w₁.acquire (.workqueue q) with priv.workqueue := some q } := by
    simp only [setWorkqueue, hcreate]
  have htaken : (setWorkqueue env w₁).Taken base q := by
    rw [hw]
    exact ⟨congrArg _ hheld, hbase, hreg, rfl⟩
  have hno₁ : (setWorkqueue env w₁).NoRelease := by
    intro r
    rw [hw]
    show .released r ∉ w₁.faults
    rw [hfaults]
    exact hno r
  rw [if_neg (by rw [htaken.workqueue]; exact nofun)] at hprobe
  exact ⟨base, _, hprobe, htaken.readEnable exec, hno₁.readEnable exec⟩

/-- A failure on the way: all is well unless there is an old workqueue to destroy. -/
theorem probe_failed (hfree : w.Free) (hno : w.NoRelease) (hreach : ¬ ReachesWorkqueue env w) :
    ∃ ret w', devWatchdogProbe exec env w = (ret, w') ∧ ret ≠ 0 ∧
      (w.priv.workqueue = none → w'.Free ∧ w'.NoRelease) ∧
      (w.priv.workqueue ≠ none → ¬ w'.NoRelease) := by
  obtain ⟨ret, w₁, hprobe, hret, hheld, hqueue, hfaults⟩ := probe_early exec hfree hreach
  refine ⟨ret, _, hprobe, Int.ne_of_lt hret, fun hq => ?_, fun hq hno' => ?_⟩
  · rw [remove_of_known hheld (hqueue.trans hq)]
    refine ⟨w₁.cleared_free, fun r => ?_⟩
    show .released r ∉ w₁.faults
    rw [hfaults]
    exact hno r
  · obtain ⟨q, hq⟩ := Option.ne_none_iff_exists'.mp hq
    rw [remove_of_stale hheld (hqueue.trans hq)] at hno'
    exact hno' _ List.mem_cons_self

/-! ## The discipline -/

/-- Between calls: everything is held for the one device that is bound, or nothing. -/
structure Settled (d : Driver σ) : Prop where
  held : d.world.Free ∧ d.bound = [] ∨ ∃ dev base q, d.world.Taken base q ∧ d.bound = [dev]
  noRelease : d.world.NoRelease

variable {d : Driver σ} {dev : Nat}

theorem World.Free.not_allHeld (h : w.Free) : ¬ w.AllHeld := by
  rintro ⟨base, q, hheld⟩
  rw [h.held] at hheld
  cases hheld

/-- The discipline of a probe that is not turned away. -/
theorem proper_probe_iff (hnew : d.world.priv.regBase = none) {ret : Int} {w' : World σ}
    (hprobe : devWatchdogProbe exec env d.world = (ret, w')) :
    Proper exec d (.probe dev env) ↔
      w'.NoRelease ∧ (ret = 0 ↔ w'.AllHeld) ∧ (ret ≠ 0 → w'.held = []) := by
  simp only [Proper, Driver.call, hprobe]
  constructor
  · rintro ⟨hno, ⟨hmapped, -⟩ | ⟨-, hrest⟩⟩
    · exact absurd hnew hmapped
    · exact ⟨hno, hrest⟩
  · rintro ⟨hno, hrest⟩
    exact ⟨hno, Or.inr ⟨hnew, hrest⟩⟩

/-- The probe of a driver that holds nothing, by what becomes of it. -/
theorem probe_of_free (hfree : d.world.Free) (hno : d.world.NoRelease)
    (hmisc : env.miscRegister ≤ 0) :
    (Proper exec d (.probe dev env) ↔ Harmless d (.probe dev env)) ∧
      (Harmless d (.probe dev env) →
        d.bound = [] → Settled (d.call exec (.probe dev env))) := by
  have hnew : ¬ d.world.priv.regBase ≠ none := not_not_intro hfree.regBase
  by_cases hreach : ReachesWorkqueue env d.world
  · cases hcreate : env.createWorkqueue with
    | none =>
      obtain ⟨w', hprobe, hfree'⟩ := probe_without_workqueue exec hfree hmisc hreach hcreate
      have hharm : ¬ Harmless d (.probe dev env) := by
        rintro (h | ⟨-, h⟩ | ⟨h, -⟩)
        · exact hnew h
        · exact h hcreate
        · exact h hreach
      refine ⟨⟨fun hproper => ?_, fun h => absurd h hharm⟩, fun h => absurd h hharm⟩
      have hall := ((proper_probe_iff exec hfree.regBase hprobe).mp hproper).2.1.mp rfl
      exact absurd hall hfree'.not_allHeld
    | some q =>
      obtain ⟨base, w', hprobe, htaken, hno'⟩ := probe_complete exec hfree hno hreach hcreate
      have hharm : Harmless d (.probe dev env) :=
        Or.inr (Or.inl ⟨hreach, by rw [hcreate]; exact nofun⟩)
      refine ⟨iff_of_true ?_ hharm, fun _ hbound => ?_⟩
      · exact (proper_probe_iff exec hfree.regBase hprobe).mpr
          ⟨hno', iff_of_true rfl ⟨base, q, htaken.held⟩, fun h => absurd rfl h⟩
      · simp only [Driver.call, hprobe, if_true]
        exact ⟨Or.inr ⟨dev, base, q, htaken, by rw [hbound]⟩, hno'⟩
  · obtain ⟨ret, w', hprobe, hret, hnull, hstale⟩ := probe_failed exec hfree hno hreach
    have hharm : Harmless d (.probe dev env) ↔ d.world.priv.workqueue = none := by
      constructor
      · rintro (h | ⟨h, -⟩ | ⟨-, h⟩)
        · exact absurd h hnew
        · exact absurd h hreach
        · exact h
      · exact fun h => Or.inr (Or.inr ⟨hreach, h⟩)
    rw [hharm, proper_probe_iff exec hfree.regBase hprobe]
    refine ⟨⟨fun hproper => ?_, fun hq => ?_⟩, fun hq hbound => ?_⟩
    · by_contra hq
      exact hstale hq hproper.1
    · obtain ⟨hfree', hno'⟩ := hnull hq
      exact ⟨hno', iff_of_false hret hfree'.not_allHeld, fun _ => hfree'.held⟩
    · simp only [Driver.call, hprobe, if_neg hret]
      exact ⟨Or.inl ⟨(hnull hq).1, hbound⟩, (hnull hq).2⟩

/-- One call. -/
theorem call_settled {c : Call} (h : Settled d) (hpossible : Possible d c) :
    (Proper exec d c ↔ Harmless d c) ∧ (Harmless d c → Settled (d.call exec c)) := by
  obtain ⟨hheld, hno⟩ := h
  cases c with
  | probe dev env =>
    rcases hheld with ⟨hfree, hbound⟩ | ⟨dev', base, q, htaken, hbound⟩
    · obtain ⟨hiff, hnext⟩ := probe_of_free exec hfree hno hpossible
      exact ⟨hiff, fun hharm => hnext hharm hbound⟩
    · have hmapped : d.world.priv.regBase ≠ none := by
        rw [htaken.regBase]
        exact nofun
      have hprobe := probe_of_mapped exec env hmapped
      have hret : Errno.eio.neg ≠ 0 := Int.ne_of_lt (Errno.neg_lt_zero _)
      refine ⟨iff_of_true ?_ (Or.inl hmapped), fun _ => ?_⟩
      · simp only [Proper, Driver.call, hprobe]
        exact ⟨hno, Or.inl ⟨hmapped, hret⟩⟩
      · simp only [Driver.call, hprobe, if_neg hret]
        exact ⟨Or.inr ⟨dev', base, q, htaken, hbound⟩, hno⟩
  | remove dev =>
    rcases hheld with ⟨-, hbound⟩ | ⟨dev', base, q, htaken, hbound⟩
    · have hmem : dev ∈ d.bound := hpossible
      rw [hbound] at hmem
      cases hmem
    · obtain rfl : dev = dev' := by
        have hmem : dev ∈ d.bound := hpossible
        rw [hbound] at hmem
        exact List.mem_singleton.mp hmem
      have hremove := remove_of_taken htaken
      refine ⟨iff_of_true ?_ trivial, fun _ => ?_⟩
      · simp only [Proper, Driver.call, hremove]
        exact ⟨hno, rfl⟩
      · simp only [Driver.call, hremove, hbound, List.erase_cons_head]
        exact ⟨Or.inl ⟨d.world.cleared_free, rfl⟩, hno⟩

/-- **Probe and remove.** From module load on, a sequence of probes and removes keeps the
discipline of its resources exactly when no probe fails to create its workqueue, and none
fails before that while `priv.workqueue` points to a workqueue of an earlier probe. -/
theorem dev_watchdog_resources_iff (regs : σ) {calls : List Call}
    (hpossible : Along (Driver.call exec) Possible ⟨.init regs, []⟩ calls) :
    Along (Driver.call exec) (Proper exec) ⟨.init regs, []⟩ calls ↔
      Along (Driver.call exec) Harmless ⟨.init regs, []⟩ calls := by
  have hinit : Settled (⟨.init regs, []⟩ : Driver σ) :=
    ⟨Or.inl ⟨⟨rfl, rfl, rfl⟩, rfl⟩, fun _ => List.not_mem_nil⟩
  exact along_iff (fun h hp => (call_settled exec h hp).1)
    (fun h hp hharm => (call_settled exec h hp).2 hharm) hinit hpossible

end Sequences

/-! ## Three probes -/

/-- A device tree with every property, and a kernel that has everything. -/
def goodEnv : ProbeEnv where
  ofIomap := some 0x1000
  ofGetProperty := fun _ => some (4, 1)
  miscRegister := 0
  createWorkqueue := some 1

theorem dev_watchdog_resources_iff_once :
    Along (Driver.call (execReg singleRegister .zero)) (Proper (execReg singleRegister .zero))
      ⟨.init 0, []⟩ [.probe 0 goodEnv, .remove 0] := by
  refine (dev_watchdog_resources_iff _ 0 ?_).mpr ?_
  · exact ⟨by unfold Possible; decide, List.mem_singleton.mpr rfl, trivial⟩
  · exact ⟨Or.inr (Or.inl ⟨⟨by decide, rfl, by decide⟩, by decide⟩), trivial, trivial⟩

/-- Without a workqueue the probe returns 0 and holds nothing. When a device has been bound
and removed, and the memory of the next cannot be mapped, the old workqueue is destroyed a
second time. -/
theorem dev_watchdog_resources_broken :
    (∃ w, devWatchdogProbe (execReg singleRegister .zero)
        { goodEnv with createWorkqueue := none } (.init 0) = (0, w) ∧ w.held = []) ∧
    ∃ w, devWatchdogProbe (execReg singleRegister .zero) { goodEnv with ofIomap := none }
        (devWatchdogRemove (devWatchdogProbe (execReg singleRegister .zero) goodEnv (.init 0)).2) =
        (-5, w) ∧ .released (.workqueue 1) ∈ w.faults :=
  ⟨⟨_, rfl, rfl⟩, _, rfl, List.mem_singleton.mpr rfl⟩

end LinuxDeviceDriver.Watchdog
