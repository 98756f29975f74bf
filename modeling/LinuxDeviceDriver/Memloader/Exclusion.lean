import LinuxDeviceDriver.Memloader.Threads

/-!
# `serial_lock`: one load at a time

`serial_lock` is one static mutex for all contexts, but `fw_initialize` runs
`mutex_init` on it for every new context. As long as nobody holds the lock at these
moments, its owner is the one thread in the critical section (`fw_loads_exclusive`);
otherwise the lock is torn away from its holder (`fw_loads_overlap`).
-/

namespace LinuxDeviceDriver.Memloader.Threads

open Lib

variable {Tid Cid : Type}

/-! ## The lock -/

/-- How a statement's operation on the lock goes with its program points. -/
inductive LockStep (pc pc' : Pc) : LockOp → Prop
  | keep : pc'.holds = pc.holds → LockStep pc pc' .keep
  | acquire : pc.holds = false → pc'.holds = true → LockStep pc pc' .acquire
  | release : pc.holds = true → pc'.holds = false → LockStep pc pc' .release
  | init : pc = .initMutex → pc'.holds = pc.holds → LockStep pc pc' .init

theorem behindLoop_holds (cb : Callbacks) (ret : Int) : (behindLoop cb ret).holds = true := by
  rcases behindLoop_cases cb ret with ⟨-, h⟩ | ⟨-, -, h⟩ | ⟨-, -, h⟩ <;> rw [h] <;> rfl

theorem LoopOk.holds {cb : Callbacks} {fr : Frame Cid} {v : View} {r : Pc × Frame Cid × View}
    (h : LoopOk cb fr v r) : r.1.holds = true := by
  rcases h.pc with hpc | hpc | hpc | hpc <;> rw [hpc]
  · rfl
  · rfl
  · rfl
  · exact behindLoop_holds cb _

theorem localStep_lock (cb : Callbacks) (e : External) (pc : Pc) (fr : Frame Cid) (v : View) :
    LockStep pc (localStep cb e pc fr v).pc (localStep cb e pc fr v).lock := by
  cases pc
  case start | loopHead | write | read => exact .keep (loopStep_ok cb e _ fr v).holds
  case lock => exact .acquire rfl rfl
  case rejectUnlock | failUnlock | unlock => exact .release rfl rfl
  case initMutex => exact .init rfl rfl
  case check | request | finalSwitch | cleanupTest =>
    simp only [localStep]
    split <;> exact .keep rfl
  case storeFailed | endCall =>
    refine .keep ?_
    simp only [localStep]
    split <;> rfl
  case initSetup =>
    simp only [localStep]
    split
    · split
      · exact .keep rfl
      · refine .keep ?_
        simp only []
        split <;> rfl
    · exact .keep rfl
  case initAdd =>
    simp only [localStep]
    split
    · exact .keep rfl
    · split <;> exact .keep rfl
  all_goals exact .keep rfl

theorem Call.entry_holds (c : Call Cid) : c.entry.holds = false := by
  cases c with
  | fwLoad c load =>
    simp only [Call.entry]
    split <;> rfl
  | fwCleanup c => rfl
  | fwInitialize c node dev => rfl

variable [DecidableEq Tid] [DecidableEq Cid]

/-- Whenever `fw_initialize` initialises `serial_lock`, nobody holds it. -/
def InitFree (s : Sys Tid Cid) (a : Tid × Input Cid) : Prop :=
  ∀ fr, s.threads a.1 = .running .initMutex fr → s.shared.owner = none

/-- **Step lemma** for the lock: its owner is the thread inside. -/
theorem step_mutex {ops : Cid → Callbacks} {s s' : Sys Tid Cid}
    {a : Tid × Input Cid} (h : MutexInv Thread.holds s.shared.owner s.threads)
    (hfree : InitFree s a) (hstep : s.step (move ops) a = some s') :
    MutexInv Thread.holds s'.shared.owner s'.threads := by
  obtain ⟨t, i⟩ := a
  obtain ⟨th', g', hmove, rfl⟩ := Pool.step_cases hstep
  cases move_cases hmove with
  | @entered c fresh hout =>
    refine h.stay ?_
    show c.entry.holds = (s.threads t).holds
    rw [c.entry_holds]
    rcases hout with hidle | ⟨fr, hret⟩
    · rw [hidle]
      rfl
    · rw [hret]
      rfl
  | @stepped e pc fr o owner hth hpc ho howner =>
    have hlock : LockStep pc o.pc o.lock := by
      rw [ho]
      exact localStep_lock _ _ _ _ _
    have hholds : (s.threads t).holds = pc.holds := by
      rw [hth]
      rfl
    show MutexInv Thread.holds owner (Function.update s.threads t (.running o.pc o.frame))
    generalize o.lock = op at hlock howner
    cases hlock with
    | keep hsame =>
      cases howner
      refine h.stay ?_
      rw [hholds]
      exact hsame
    | acquire _ hin =>
      simp only [LockOp.apply] at howner
      split at howner
      · next hnone =>
        cases howner
        exact h.acquire hnone hin
      · cases howner
    | release hin hout =>
      cases howner
      exact h.release (hholds.trans hin) hout
    | init hinit hsame =>
      cases howner
      have hnone : s.shared.owner = none := by
        rw [hinit] at hth
        exact hfree fr hth
      have hstay := h.stay (p := .running o.pc o.frame) (hsame.trans hholds.symm)
      rw [hnone] at hstay
      exact hstay

omit [DecidableEq Tid] [DecidableEq Cid] in
theorem boot_mutex (ctx : Cid → FwContext) (fresh : Cid → Bool) :
    MutexInv Thread.holds (boot ctx fresh : Sys Tid Cid).shared.owner
      (boot ctx fresh : Sys Tid Cid).threads := by
  intro t
  simp [boot, Thread.holds]

/-- The owner of the lock is the thread inside, along every run that initialises the
lock only while it is free. -/
theorem reach_mutex {ops : Cid → Callbacks} {ctx : Cid → FwContext} {fresh : Cid → Bool}
    {s : Sys Tid Cid} (h : Reach (Pool.step (move ops)) InitFree (boot ctx fresh) s) :
    MutexInv Thread.holds s.shared.owner s.threads :=
  h.invariant (I := fun s => MutexInv Thread.holds s.shared.owner s.threads)
    (boot_mutex ctx fresh) fun hinv hfree hstep => step_mutex hinv hfree hstep

/-- The statements that call `mutex_unlock`. -/
def Pc.unlocks : Pc → Bool
  | rejectUnlock | failUnlock | unlock => true
  | _ => false

theorem Pc.unlocks_holds {pc : Pc} (h : pc.unlocks = true) : pc.holds = true := by
  cases pc <;> first | rfl | cases h

/-- **Firmware loads exclude each other**, and whoever unlocks is the owner, in every
run in which `fw_initialize` never initialises `serial_lock` while it is held. -/
theorem fw_loads_exclusive {ops : Cid → Callbacks} {ctx : Cid → FwContext} {fresh : Cid → Bool}
    {s : Sys Tid Cid} (h : Reach (Pool.step (move ops)) InitFree (boot ctx fresh) s) :
    (∀ t u, (s.threads t).holds = true → (s.threads u).holds = true → t = u) ∧
    ∀ t pc fr, s.threads t = .running pc fr → pc.unlocks = true → s.shared.owner = some t := by
  have hinv := reach_mutex h
  constructor
  · intro t u ht hu
    exact hinv.exclusive ht hu
  · intro t pc fr hth hunlock
    refine (hinv t).mpr ?_
    rw [hth]
    exact Pc.unlocks_holds hunlock

/-- A step in which callbacks and kernel functions report success and
`request_firmware` fails. -/
def proceed (Cid : Type) : Input Cid := .go (answer 0)

/-- A device tree node that asks for a firmware load and nothing else. -/
def plainNode : DtNode := ⟨true, none, none, none, none, none⟩

/-- Context `c` is initialised by thread `c`. -/
def initialized (c : Bool) : List (Bool × Input Bool) :=
  (c, .call (.fwInitialize c plainNode (some 0))) :: List.replicate 3 (c, proceed Bool)

/-- A context is initialised while the lock is free, and then loaded. -/
theorem fw_loads_exclusive_single :
    ∃ s : Sys Bool Bool,
      Reach (Pool.step (move fun _ => ⟨false, false, false, false⟩)) InitFree
        (boot (fun _ => .zero) fun _ => true) s ∧
      (s.threads true).holds = true ∧ ∀ u, (s.threads u).holds = true → true = u := by
  obtain ⟨s, hrun, hin⟩ : ∃ s : Sys Bool Bool,
      runFrom (checked (Pool.step (move fun _ => ⟨false, false, false, false⟩))
          fun s _ => s.shared.owner.isNone)
        (boot (fun _ => .zero) fun _ => true)
        (initialized true ++ [(true, .call (.fwLoad true 1)), (true, proceed Bool)]) = some s ∧
      (s.threads true).holds = true := ⟨_, rfl, rfl⟩
  have hreach := reach_checked (g := InitFree)
    (fun s _ hfree _ _ => Option.isNone_iff_eq_none.mp hfree) hrun
  exact ⟨s, hreach, hin, fun u hu => (fw_loads_exclusive hreach).1 true u hin hu⟩

/-- Context `false` is probed while thread `true` loads context `true`: the lock is
initialised under its holder, thread `false` gets it as well, and thread `true` will
unlock a mutex that is not its own. -/
theorem fw_loads_overlap :
    ∃ s : Sys Bool Bool, ∃ fr,
      runFrom (Pool.step (move fun _ => ⟨false, false, false, false⟩))
        (boot (fun _ => .zero) fun _ => true)
        (initialized true ++
          ((true, .call (.fwLoad true 1)) :: List.replicate 5 (true, proceed Bool)) ++
          initialized false ++ [(false, .call (.fwLoad false 1)), (false, proceed Bool)]) =
        some s ∧
      (s.threads true).holds = true ∧ (s.threads false).holds = true ∧
      s.threads true = .running .failUnlock fr ∧ s.shared.owner = some false :=
  ⟨_, _, rfl, rfl, rfl, rfl, rfl⟩

end LinuxDeviceDriver.Memloader.Threads
