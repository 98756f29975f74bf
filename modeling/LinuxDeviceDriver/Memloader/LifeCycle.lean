import LinuxDeviceDriver.Memloader.Exclusion

/-!
# The life cycle of a call

What a call takes it gives back, whatever the callbacks return and whoever
interferes: an image is released once, `end` is called once and before that, and a
call that took `serial_lock` releases it. The program point of a call determines
what it has done so far (`Pc.log`), so all of this is one assertion per program point
(`FrameOk`), kept by `localStep`.

`FW_LOADING` does not outlive the critical section: whoever reads it, a call that is
still inside (`Pc.inLoad`) has stored it and will replace it.
-/

namespace LinuxDeviceDriver.Memloader.Threads

open Lib

variable {Tid Cid : Type}

/-! ## What a call has done -/

/-- `fw_load_device_firmware(ctx, 0)`. -/
def Call.cancels : Call Cid → Prop
  | fwLoad _ load => load = 0
  | _ => False

/-- `fw_load_device_firmware(ctx, load)` with `load != 0`. -/
def Call.loads : Call Cid → Prop
  | fwLoad _ load => load ≠ 0
  | _ => False

def Call.cleansUp : Call Cid → Prop
  | fwCleanup _ => True
  | _ => False

def Call.initializes : Call Cid → Prop
  | fwInitialize _ _ _ => True
  | _ => False

/-- The call a program point belongs to. -/
def Pc.serves (c : Call Cid) : Pc → Prop
  | cancelStore => c.cancels
  | cleanupTest | cleanupStore | cleanupDel => c.cleansUp
  | initSetup | initMutex | initAdd => c.initializes
  | _ => c.loads

/-- `end` is called when there is one. -/
def endEvents (endOp : Bool) : List Event := if endOp then [.ended] else []

/-- What a call has done when it stands at a program point. -/
def Pc.log (endOp : Bool) : Pc → List Event
  | check | rejectUnlock | storeLoading | request | storeRequestFailed | failUnlock => [.locked]
  | start | loopHead | write | read | storeFailed | endCall => [.locked, .gotImage]
  | storeEndFailed | release => .locked :: .gotImage :: endEvents endOp
  | finalSwitch | storeLoaded | storeEmpty | unlock =>
    .locked :: .gotImage :: (endEvents endOp ++ [.released])
  | _ => []

/-- What a call has done when it has returned. -/
inductive Completed (endOp : Bool) (c : Call Cid) : List Event → Prop
  | cancel : c.cancels → Completed endOp c []
  | noImage : c.loads → Completed endOp c [.locked, .unlocked]
  | image : c.loads →
      Completed endOp c (.locked :: .gotImage :: (endEvents endOp ++ [.released, .unlocked]))
  | cleanup : c.cleansUp → Completed endOp c []
  | setup : c.initializes → Completed endOp c []

/-- A call is of one kind. -/
theorem Call.not_loads {c : Call Cid} (h : c.cancels ∨ c.cleansUp ∨ c.initializes) :
    ¬ c.loads := by
  cases c with
  | fwLoad c load =>
    rcases h with h | h | h
    · exact not_not_intro h
    · cases h
    · cases h
  | fwCleanup c => exact id
  | fwInitialize c node dev => exact id

/-- An image is released once, and `end` called once before, if there is one. -/
theorem Completed.image_once {endOp : Bool} {c : Call Cid} {log : List Event}
    (h : Completed endOp c log) (himage : .gotImage ∈ log) :
    log.count .released = 1 ∧ log.count .ended = (if endOp then 1 else 0) ∧
      (.ended ∈ log → log.idxOf .ended < log.idxOf .released) := by
  cases h with
  | cancel _ | cleanup _ | setup _ => cases himage
  | noImage _ => exact absurd himage (by decide)
  | image _ =>
    cases endOp with
    | true => decide
    | false => decide

/-- A load takes and releases the lock once. -/
theorem Completed.lock_once {endOp : Bool} {c : Call Cid} {log : List Event}
    (h : Completed endOp c log) (hloads : c.loads) :
    log.count .locked = 1 ∧ log.count .unlocked = 1 := by
  cases h with
  | cancel hc => exact absurd hloads (Call.not_loads (Or.inl hc))
  | cleanup hc => exact absurd hloads (Call.not_loads (Or.inr (Or.inl hc)))
  | setup hc => exact absurd hloads (Call.not_loads (Or.inr (Or.inr hc)))
  | noImage _ => decide
  | image _ =>
    cases endOp with
    | true => decide
    | false => decide

/-- A cancellation stays away from the lock. -/
theorem Completed.lock_never {endOp : Bool} {c : Call Cid} {log : List Event}
    (h : Completed endOp c log) (hcancels : c.cancels) :
    log.count .locked = 0 ∧ log.count .unlocked = 0 := by
  have hnot := Call.not_loads (Or.inl hcancels)
  cases h with
  | cancel _ | cleanup _ | setup _ => exact ⟨rfl, rfl⟩
  | noImage hc => exact absurd hc hnot
  | image hc => exact absurd hc hnot

/-- A call under way. -/
structure Underway (cb : Callbacks) (pc : Pc) (fr : Frame Cid) : Prop where
  serves : pc.serves fr.call
  log : fr.log = pc.log cb.endOp
  hasEnd : pc = .endCall → cb.endOp = true

/-- A call under way or completed. -/
def FrameOk (cb : Callbacks) (pc : Pc) (fr : Frame Cid) : Prop :=
  if pc = .returned then Completed cb.endOp fr.call fr.log else Underway cb pc fr

section LifeCycle

variable {cb : Callbacks} {pc : Pc} {fr fr' : Frame Cid}

theorem FrameOk.underway (hpc : pc ≠ .returned) (h : Underway cb pc fr) : FrameOk cb pc fr := by
  unfold FrameOk
  rwa [if_neg hpc]

/-- The call goes on, anywhere but in the end callback. -/
theorem FrameOk.goesOn (hpc : pc ≠ .returned) (hend : pc ≠ .endCall) (hserves : pc.serves fr.call)
    (hlog : fr.log = pc.log cb.endOp) : FrameOk cb pc fr :=
  .underway hpc ⟨hserves, hlog, fun h => absurd h hend⟩

theorem FrameOk.completed (h : Completed cb.endOp fr.call fr.log) :
    FrameOk cb .returned fr := by
  unfold FrameOk
  rwa [if_pos rfl]

theorem FrameOk.underway_of_ne (h : FrameOk cb pc fr) (hpc : pc ≠ .returned) :
    Underway cb pc fr := by
  unfold FrameOk at h
  rwa [if_neg hpc] at h

theorem FrameOk.completed_of_eq (h : FrameOk cb .returned fr) :
    Completed cb.endOp fr.call fr.log := by
  unfold FrameOk at h
  rwa [if_pos rfl] at h

theorem Call.entry_ok (c : Call Cid) : FrameOk cb c.entry c.frame := by
  cases c with
  | fwLoad c load =>
    by_cases hload : load = 0
    · simp only [Call.entry, if_pos hload]
      exact .goesOn Pc.noConfusion Pc.noConfusion hload rfl
    · simp only [Call.entry, if_neg hload]
      exact .goesOn Pc.noConfusion Pc.noConfusion hload rfl
  | fwCleanup c => exact .goesOn Pc.noConfusion Pc.noConfusion trivial rfl
  | fwInitialize c node dev =>
    exact .goesOn Pc.noConfusion Pc.noConfusion trivial rfl

/-- Behind the loop the call goes to `storeFailed`, `end` or the release. -/
theorem behindLoop_ok (hloads : fr.call.loads) (hlog : fr.log = [.locked, .gotImage]) :
    FrameOk cb (behindLoop cb fr.ret) fr := by
  rcases behindLoop_cases cb fr.ret with ⟨-, h⟩ | ⟨-, hend, h⟩ | ⟨-, hend, h⟩
  · rw [h]
    exact .goesOn Pc.noConfusion Pc.noConfusion hloads hlog
  · rw [h]
    exact .underway (by simp) ⟨hloads, hlog, fun _ => hend⟩
  · rw [h]
    refine .goesOn Pc.noConfusion Pc.noConfusion hloads ?_
    rw [hlog, Pc.log, endEvents, hend]
    rfl

theorem loopStep_frameOk {e : External} {v : View} (hloads : fr.call.loads)
    (hlog : fr.log = [.locked, .gotImage]) :
    FrameOk cb (loopStep cb e pc fr v).1 (loopStep cb e pc fr v).2.1 := by
  have hok := loopStep_ok cb e pc fr v
  generalize loopStep cb e pc fr v = r at hok ⊢
  rw [← hok.call] at hloads
  rw [← hok.log] at hlog
  rcases hok.pc with h | h | h | h
  · rw [h]
    exact .goesOn Pc.noConfusion Pc.noConfusion hloads hlog
  · rw [h]
    exact .goesOn Pc.noConfusion Pc.noConfusion hloads hlog
  · rw [h]
    exact .goesOn Pc.noConfusion Pc.noConfusion hloads hlog
  · rw [h]
    exact behindLoop_ok hloads hlog

/-- **Step lemma** for the life cycle: one case per program point. -/
theorem localStep_frameOk (h : Underway cb pc fr) (hpc : pc ≠ .returned) (e : External)
    (v : View) : FrameOk cb (localStep cb e pc fr v).pc (localStep cb e pc fr v).frame := by
  obtain ⟨hserves, hlog, hend⟩ := h
  cases pc
  case start | loopHead | write | read => exact loopStep_frameOk hserves hlog
  case cancelStore =>
    refine .completed ?_
    show Completed cb.endOp fr.call fr.log
    rw [hlog]
    exact .cancel hserves
  case lock =>
    refine .goesOn Pc.noConfusion Pc.noConfusion hserves ?_
    simp [localStep, hlog, Pc.log]
  case check =>
    simp only [localStep]
    split <;> exact .goesOn Pc.noConfusion Pc.noConfusion hserves hlog
  case rejectUnlock | failUnlock =>
    refine .completed ?_
    show Completed cb.endOp fr.call (fr.log ++ [.unlocked])
    rw [hlog]
    exact .noImage hserves
  case storeLoading | storeRequestFailed =>
    exact .goesOn Pc.noConfusion Pc.noConfusion hserves hlog
  case request =>
    simp only [localStep]
    split
    · exact .goesOn Pc.noConfusion Pc.noConfusion hserves hlog
    · exact .goesOn Pc.noConfusion Pc.noConfusion hserves (by simp [hlog, Pc.log])
  case storeFailed =>
    simp only [localStep]
    cases hop : cb.endOp with
    | true => exact .underway (by simp) ⟨hserves, hlog, fun _ => hop⟩
    | false =>
      refine .goesOn Pc.noConfusion Pc.noConfusion hserves ?_
      simp [hlog, Pc.log, endEvents, hop]
  case endCall =>
    have hop := hend rfl
    have hlog' : fr.log ++ [.ended] = .locked :: .gotImage :: endEvents cb.endOp := by
      rw [hlog, endEvents, if_pos hop]
      rfl
    simp only [localStep]
    split
    · exact .goesOn Pc.noConfusion Pc.noConfusion hserves hlog'
    · exact .goesOn Pc.noConfusion Pc.noConfusion hserves hlog'
  case storeEndFailed => exact .goesOn Pc.noConfusion Pc.noConfusion hserves hlog
  case release =>
    exact .goesOn Pc.noConfusion Pc.noConfusion hserves (by simp [localStep, hlog, Pc.log])
  case finalSwitch =>
    simp only [localStep]
    split <;> exact .goesOn Pc.noConfusion Pc.noConfusion hserves hlog
  case storeLoaded | storeEmpty =>
    exact .goesOn Pc.noConfusion Pc.noConfusion hserves hlog
  case unlock =>
    refine .completed ?_
    show Completed cb.endOp fr.call (fr.log ++ [.unlocked])
    rw [hlog, show Pc.unlock.log cb.endOp ++ [.unlocked] =
      .locked :: .gotImage :: (endEvents cb.endOp ++ [.released, .unlocked]) by
        simp [Pc.log]]
    exact .image hserves
  case cleanupTest =>
    simp only [localStep]
    split
    · exact .goesOn Pc.noConfusion Pc.noConfusion hserves hlog
    · refine .completed ?_
      rw [hlog]
      exact .cleanup hserves
  case cleanupStore => exact .goesOn Pc.noConfusion Pc.noConfusion hserves hlog
  case cleanupDel =>
    refine .completed ?_
    show Completed cb.endOp fr.call fr.log
    rw [hlog]
    exact .cleanup hserves
  case initSetup =>
    simp only [localStep]
    have hdone : Completed cb.endOp fr.call fr.log := by
      rw [hlog]
      exact .setup hserves
    split
    · split
      · exact .completed hdone
      · simp only []
        split <;> exact .goesOn Pc.noConfusion Pc.noConfusion hserves hlog
    · exact .completed hdone
  case initMutex => exact .goesOn Pc.noConfusion Pc.noConfusion hserves hlog
  case initAdd =>
    simp only [localStep]
    have hdone : Completed cb.endOp fr.call fr.log := by
      rw [hlog]
      exact .setup hserves
    split
    · exact .completed hdone
    · split <;> exact .completed hdone
  case returned => exact absurd rfl hpc

end LifeCycle

/-! ## `FW_LOADING` belongs to a call inside -/

/-- Between storing `FW_LOADING` and replacing it. -/
def Pc.inLoad : Pc → Bool
  | request | storeRequestFailed | start | loopHead | write | read | storeFailed | endCall
  | storeEndFailed | release | finalSwitch | storeLoaded | storeEmpty => true
  | _ => false

theorem Pc.inLoad_holds {pc : Pc} (h : pc.inLoad = true) : pc.holds = true := by
  cases pc <;> first | rfl | cases h

theorem behindLoop_inLoad (cb : Callbacks) (ret : Int) : (behindLoop cb ret).inLoad = true := by
  rcases behindLoop_cases cb ret with ⟨-, h⟩ | ⟨-, -, h⟩ | ⟨-, -, h⟩ <;> rw [h] <;> rfl

theorem LoopOk.inLoad {cb : Callbacks} {fr : Frame Cid} {v : View} {r : Pc × Frame Cid × View}
    (h : LoopOk cb fr v r) : r.1.inLoad = true := by
  rcases h.pc with hpc | hpc | hpc | hpc <;> rw [hpc]
  · rfl
  · rfl
  · rfl
  · exact behindLoop_inLoad cb _

/-- A statement leaves `FW_LOADING` behind only inside a load, or where it found it
outside of one. -/
theorem localStep_loading (cb : Callbacks) (e : External) (pc : Pc) (fr : Frame Cid) (v : View)
    (h : (localStep cb e pc fr v).view.ctx.state = .loading) :
    (localStep cb e pc fr v).pc.inLoad = true ∨ (v.ctx.state = .loading ∧ pc.inLoad = false) := by
  cases pc
  case start | loopHead | write | read => exact Or.inl (loopStep_ok cb e _ fr v).inLoad
  case lock | rejectUnlock | failUnlock | unlock | cleanupDel | initMutex | returned =>
    exact Or.inr ⟨h, rfl⟩
  case storeLoading | storeEndFailed | release => exact Or.inl rfl
  case check =>
    refine Or.inr ⟨?_, rfl⟩
    revert h
    simp only [localStep]
    split <;> exact id
  case request =>
    left
    simp only [localStep]
    split <;> rfl
  case storeFailed | endCall =>
    left
    simp only [localStep]
    split <;> rfl
  case finalSwitch =>
    -- it leaves the load only when the state is not FW_LOADING
    simp only [localStep] at h ⊢
    split at h
    · exact Or.inl rfl
    all_goals
      next hstate =>
      rw [show v.ctx.state = .loading from h] at hstate
      cases hstate
  case cancelStore | storeRequestFailed | storeLoaded | storeEmpty | cleanupStore => cases h
  case cleanupTest =>
    refine Or.inr ⟨?_, rfl⟩
    revert h
    simp only [localStep]
    split <;> exact id
  case initSetup =>
    simp only [localStep] at h
    split at h
    · split at h
      all_goals exact absurd ((fwInitializeContext_state _ _ _).symm.trans h) (by decide)
    · exact Or.inr ⟨h, rfl⟩
  case initAdd =>
    refine Or.inr ⟨?_, rfl⟩
    revert h
    simp only [localStep]
    split
    · exact id
    · split <;> exact id

/-! ## All calls together -/

variable [DecidableEq Tid] [DecidableEq Cid] {ops : Cid → Callbacks} {ctx : Cid → FwContext}
  {fresh : Cid → Bool} {s s' : Sys Tid Cid}

/-- Loads, cancellations and cleanups only: the contexts have been initialised. -/
def LoadCalls (_s : Sys Tid Cid) (a : Tid × Input Cid) : Prop :=
  ∀ c, a.2 = .call c → ¬ c.initializes

/-- `LoadCalls` as a check. -/
def Input.loadCall : Input Cid → Bool
  | .call (.fwInitialize _ _ _) => false
  | _ => true

omit [DecidableEq Tid] [DecidableEq Cid] in
theorem loadCalls_of_loadCall {a : Tid × Input Cid} (h : a.2.loadCall = true) :
    LoadCalls s a := by
  intro c hc hinit
  cases c with
  | fwLoad c load => exact hinit
  | fwCleanup c => exact hinit
  | fwInitialize c node dev =>
    rw [hc] at h
    cases h

/-- Every call has done what its program point says, and none initialises. -/
def ThreadOk (ops : Cid → Callbacks) (_t : Tid) (th : Thread Cid) (_g : Shared Tid Cid) : Prop :=
  ∀ pc fr, th = .running pc fr → FrameOk (ops fr.call.cid) pc fr ∧ ¬ fr.call.initializes

theorem reach_threadOk (h : Reach (Pool.step (move ops)) LoadCalls (boot ctx fresh) s) :
    s.All (ThreadOk ops) := by
  refine Pool.invariant_of_assertions ?_ ?_ ?_ h
  · intro t pc fr hth
    cases hth
  · intro s t i th' g' _ hall hcalls hmove
    cases move_cases hmove with
    | @entered c fresh hout =>
      intro pc fr hth
      cases hth
      exact ⟨c.entry_ok, hcalls c rfl⟩
    | @stepped e pc fr o owner hth hpc ho howner =>
      intro pc' fr' hth'
      cases hth'
      obtain ⟨hframe, hcall⟩ := hall t pc fr hth
      have hsame : o.frame.call = fr.call := by
        rw [ho]
        exact localStep_call _ _ _ _ _
      rw [hsame]
      refine ⟨?_, hcall⟩
      rw [ho]
      exact localStep_frameOk (hframe.underway_of_ne hpc) hpc e _
  · intro s t i th' g' _ hall _ _ u _
    exact hall u

omit [DecidableEq Tid] [DecidableEq Cid] in
/-- Without `fw_initialize` nobody touches the lock from outside. -/
theorem initFree_of_threadOk (h : s.All (ThreadOk ops)) (a : Tid × Input Cid) : InitFree s a := by
  intro fr hth
  obtain ⟨hframe, hcall⟩ := h a.1 _ fr hth
  exact absurd (hframe.underway_of_ne (by simp)).serves hcall

theorem reach_initFree (h : Reach (Pool.step (move ops)) LoadCalls (boot ctx fresh) s) :
    Reach (Pool.step (move ops)) InitFree (boot ctx fresh) s := by
  refine h.invariant_reached .init fun hreach ih _ hstep => ?_
  exact ih.tail (initFree_of_threadOk (reach_threadOk hreach) _) hstep

/-- Whenever a context is `FW_LOADING`, some load of it is inside. -/
def LoadingOwned (s : Sys Tid Cid) : Prop :=
  ∀ c, (s.shared.view c).ctx.state = .loading →
    ∃ t pc fr, s.threads t = .running pc fr ∧ fr.call.cid = c ∧ pc.inLoad = true

theorem step_loadingOwned {a : Tid × Input Cid} (h : LoadingOwned s)
    (hstep : s.step (move ops) a = some s') : LoadingOwned s' := by
  obtain ⟨t, i⟩ := a
  obtain ⟨th', g', hmove, rfl⟩ := Pool.step_cases hstep
  -- the call that is inside may only be another thread's
  have hkeep : ∀ c, (∃ u pc fr, s.threads u = .running pc fr ∧ fr.call.cid = c ∧
      pc.inLoad = true ∧ u ≠ t) →
      ∃ u pc fr, Function.update s.threads t th' u = .running pc fr ∧ fr.call.cid = c ∧
        pc.inLoad = true := by
    rintro c ⟨u, pc, fr, hth, hcid, hin, hut⟩
    exact ⟨u, pc, fr, by rw [Function.update_of_ne hut, hth], hcid, hin⟩
  cases move_cases hmove with
  | @entered c₀ fresh hout =>
    intro c hc
    obtain ⟨u, pc, fr, hth, hcid, hin⟩ := h c hc
    refine hkeep c ⟨u, pc, fr, hth, hcid, hin, ?_⟩
    rintro rfl
    rcases hout with hidle | ⟨fr', hret⟩
    · rw [hidle] at hth
      cases hth
    · rw [hret] at hth
      cases hth
      cases hin
  | @stepped e pc fr o owner hth hpc ho howner =>
    intro c hc
    have hcall : o.frame.call = fr.call := by
      rw [ho]
      exact localStep_call _ _ _ _ _
    by_cases hcid : c = fr.call.cid
    · subst hcid
      have hloading : o.view.ctx.state = .loading := by
        simpa [Function.update_self] using hc
      have hcases := localStep_loading (ops fr.call.cid) e pc fr (s.shared.view fr.call.cid)
      rw [← ho] at hcases
      rcases hcases hloading with hin | ⟨hold, hnot⟩
      · exact ⟨t, o.pc, o.frame, Function.update_self .., by rw [hcall], hin⟩
      · obtain ⟨u, pc', fr', hth', hcid', hin⟩ := h _ hold
        refine hkeep _ ⟨u, pc', fr', hth', hcid', hin, ?_⟩
        rintro rfl
        rw [hth] at hth'
        cases hth'
        rw [hnot] at hin
        cases hin
    · have hold : (s.shared.view c).ctx.state = .loading := by
        simpa [Function.update_of_ne hcid] using hc
      obtain ⟨u, pc', fr', hth', hcid', hin⟩ := h c hold
      refine hkeep _ ⟨u, pc', fr', hth', hcid', hin, ?_⟩
      rintro rfl
      rw [hth] at hth'
      cases hth'
      exact hcid hcid'.symm

theorem reach_loadingOwned (hctx : ∀ c, (ctx c).state ≠ .loading) {guard : Sys Tid Cid → _ → Prop}
    (h : Reach (Pool.step (move ops)) guard (boot ctx fresh) s) : LoadingOwned s :=
  h.invariant (fun c hc => absurd hc (hctx c)) fun hinv _ hstep => step_loadingOwned hinv hstep

/-- **The life cycle of loads, cancellations and cleanups**: `FW_LOADING` is never seen
while the lock is free; a returned call that obtained an image has released it once
and called `end` once, if there is one, and before the release; and a load has
released the lock once, while a cancellation has neither taken nor released it. -/
theorem fw_load_life_cycle (hctx : ∀ c, (ctx c).state ≠ .loading)
    (h : Reach (Pool.step (move ops)) LoadCalls (boot ctx fresh) s) :
    (s.shared.owner = none → ∀ c, (s.shared.view c).ctx.state ≠ .loading) ∧
    ∀ t fr, s.threads t = .running .returned fr →
      (.gotImage ∈ fr.log → fr.log.count .released = 1 ∧
        fr.log.count .ended = (if (ops fr.call.cid).endOp then 1 else 0) ∧
        (.ended ∈ fr.log → fr.log.idxOf .ended < fr.log.idxOf .released)) ∧
      (fr.call.loads → fr.log.count .locked = 1 ∧ fr.log.count .unlocked = 1) ∧
      (fr.call.cancels → fr.log.count .locked = 0 ∧ fr.log.count .unlocked = 0) := by
  constructor
  · intro hfree c hc
    obtain ⟨t, pc, fr, hth, -, hin⟩ := reach_loadingOwned hctx h c hc
    have hout := (reach_mutex (reach_initFree h)).outside hfree t
    rw [hth] at hout
    rw [show (Thread.running pc fr).holds = true from Pc.inLoad_holds hin] at hout
    cases hout
  · intro t fr hth
    have hdone := (reach_threadOk h t _ fr hth).1.completed_of_eq
    exact ⟨hdone.image_once, hdone.lock_once, hdone.lock_never⟩

/-- A load whose callbacks are all there and that is cancelled in its loop, up to its
return. -/
def loadAndCancel : List (Bool × Input Unit) :=
  (true, .call (.fwLoad () 1)) :: List.replicate 3 (true, proceed Unit) ++
    [(true, .go ⟨0, .ok ⟨4, some fun _ => 255, none⟩⟩), (true, proceed Unit),
      (false, .call (.fwLoad () 0)), (false, proceed Unit)] ++
    List.replicate 5 (true, proceed Unit)

/-- It has released its image and the lock. -/
theorem fw_load_life_cycle_cancelled :
    ∃ s : Sys Bool Unit, ∃ fr,
      Reach (Pool.step (move fun _ => ⟨true, true, true, true⟩)) LoadCalls
        (boot (fun _ => .zero) fun _ => false) s ∧
      s.threads true = .running .returned fr ∧ .gotImage ∈ fr.log ∧
      fr.log.count .released = 1 ∧ fr.log.count .unlocked = 1 := by
  obtain ⟨s, fr, hrun, hth, himage, hload⟩ : ∃ s : Sys Bool Unit, ∃ fr,
      runFrom (checked (Pool.step (move fun _ => ⟨true, true, true, true⟩)) fun _ a =>
          a.2.loadCall)
        (boot (fun _ => .zero) fun _ => false) loadAndCancel = some s ∧
      s.threads true = .running .returned fr ∧ .gotImage ∈ fr.log ∧ fr.call = .fwLoad () 1 :=
    ⟨_, _, rfl, rfl, by decide, rfl⟩
  have hreach := reach_checked (g := LoadCalls) (fun _ _ => loadCalls_of_loadCall) hrun
  have hlife := (fw_load_life_cycle (fun _ => by decide) hreach).2 true fr hth
  refine ⟨s, fr, hreach, hth, himage, (hlife.1 himage).1, (hlife.2.1 ?_).2⟩
  rw [hload]
  exact Int.one_ne_zero

/-- `fw_load_device_firmware(ctx, 0)` returns without releasing `serial_lock`. -/
theorem fw_cancel_leaves_lock_alone :
    ∃ s : Sys Bool Unit, ∃ fr,
      runFrom (Pool.step (move fun _ => ⟨true, true, true, true⟩))
        (boot (fun _ => .zero) fun _ => false)
        [(false, .call (.fwLoad () 0)), (false, proceed Unit)] = some s ∧
      s.threads false = .running .returned fr ∧ fr.log.count .unlocked = 0 :=
  ⟨_, _, rfl, rfl, by decide⟩

end LinuxDeviceDriver.Memloader.Threads
