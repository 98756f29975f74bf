import LinuxDeviceDriver.Memloader.LifeCycle

/-!
# Cancelling and deleting under a running load

`fw_load_device_firmware(ctx, 0)` and `fw_cleanup` store to `ctx->state` without the
lock, while a load tests the state in its loop, hands it to `end` and switches on it
at the end. What a load in flight knows about the state (`Known`) survives these
stores everywhere but in two windows:

- behind the final switch, where the load has already decided to return 0;
- around `end`, which may turn a failed and cancelled load into a returned 0.

Outside of them no cancellation is lost (`fw_cancel_not_lost`).

A deleted context stays closed to new loads as long as nobody stores `FW_EMPTY` or
`FW_FAILED` over `FW_DELETED` (`fw_deleted_is_final`).
-/

namespace LinuxDeviceDriver.Memloader.Threads

open Lib

variable {Tid Cid : Type}

/-! ## What a load in flight knows -/

/-- The context has been cancelled since the load stored `FW_LOADING`. -/
def Cancelled (fr : Frame Cid) (v : View) : Prop := v.cancels ≠ fr.seen

/-- From storing `FW_LOADING` to the end of the load loop. -/
structure InProgress (fr : Frame Cid) (v : View) : Prop where
  not_loaded : v.ctx.state ≠ .loaded
  not_failed : v.ctx.state ≠ .failed
  cancelled : Cancelled fr v → v.ctx.state ≠ .loading

/-- From `end` to the final switch. -/
structure Ending (fr : Frame Cid) (v : View) : Prop where
  not_loaded : v.ctx.state ≠ .loaded
  cancelled : Cancelled fr v → v.ctx.state ≠ .loading
  failed : Cancelled fr v → v.ctx.state = .failed → fr.ret ≠ 0

def Known (pc : Pc) (fr : Frame Cid) (v : View) : Prop :=
  match pc with
  | .request | .start | .loopHead | .write | .read => InProgress fr v
  | .storeRequestFailed | .storeFailed | .storeEndFailed => fr.ret < 0
  | .failUnlock => fr.ret < 0 ∧ v.ctx.state ≠ .loaded
  | .endCall => v.ctx.state ≠ .loaded ∧ (Cancelled fr v → v.ctx.state ≠ .loading)
  | .release | .finalSwitch => Ending fr v
  | .storeLoaded => ¬ Cancelled fr v
  | .storeEmpty => False
  | .unlock => Cancelled fr v → fr.ret ≠ 0 ∧ v.ctx.state ≠ .loaded
  | .returned => fr.cancelled = true → fr.ret ≠ 0 ∧ fr.finalState ≠ some .loaded
  | .lock | .check | .rejectUnlock | .storeLoading => True
  | _ => fr.cancelled = false

/-- Between storing `FW_LOADING` and the return. -/
def Pc.inFlight (pc : Pc) : Bool := pc.inLoad || pc == .failUnlock || pc == .unlock

/-- `end` does not report success to a load that has failed and been cancelled. -/
def EndHonest (pc : Pc) (e : External) (fr : Frame Cid) (v : View) : Prop :=
  pc = .endCall → Cancelled fr v → v.ctx.state = .failed → e.ret ≠ 0

/-- A call that is no load returns without having been cancelled. -/
theorem known_uncancelled {fr : Frame Cid} {v : View} (h : fr.cancelled = false) :
    Known .returned fr v := by
  intro hc
  rw [h] at hc
  cases hc

theorem behindLoop_known {cb : Callbacks} {fr : Frame Cid} {v : View} (h : InProgress fr v) :
    Known (behindLoop cb fr.ret) fr v := by
  rcases behindLoop_cases cb fr.ret with ⟨hneg, hpc⟩ | ⟨-, -, hpc⟩ | ⟨-, -, hpc⟩
  · rw [hpc]
    exact hneg
  · rw [hpc]
    exact ⟨h.not_loaded, h.cancelled⟩
  · rw [hpc]
    exact ⟨h.not_loaded, h.cancelled, fun _ hfailed => absurd hfailed h.not_failed⟩

theorem loopStep_known {cb : Callbacks} {e : External} {pc : Pc} {fr : Frame Cid} {v : View}
    (h : InProgress fr v) :
    Known (loopStep cb e pc fr v).1 (loopStep cb e pc fr v).2.1 (loopStep cb e pc fr v).2.2 := by
  have hok := loopStep_ok cb e pc fr v
  generalize loopStep cb e pc fr v = r at hok ⊢
  have hprogress : InProgress r.2.1 r.2.2 := by
    refine ⟨?_, ?_, ?_⟩
    · rw [hok.state]
      exact h.not_loaded
    · rw [hok.state]
      exact h.not_failed
    · unfold Cancelled
      rw [hok.state, hok.cancels, hok.seen]
      exact h.cancelled
  rcases hok.pc with hpc | hpc | hpc | hpc <;> rw [hpc]
  · exact hprogress
  · exact hprogress
  · exact hprogress
  · exact behindLoop_known hprogress

/-- **Step lemma**: a call's own statements keep what it knows. -/
theorem localStep_known {cb : Callbacks} {e : External} {pc : Pc} {fr : Frame Cid} {v : View}
    (h : Known pc fr v) (hend : EndHonest pc e fr v) :
    Known (localStep cb e pc fr v).pc (localStep cb e pc fr v).frame
      (localStep cb e pc fr v).view := by
  cases pc
  case start | loopHead | write | read => exact loopStep_known h
  case cancelStore | cleanupDel => exact known_uncancelled h
  case lock => trivial
  case check =>
    simp only [localStep]
    split <;> trivial
  case rejectUnlock => exact known_uncancelled rfl
  case storeLoading =>
    refine ⟨by simp [localStep], by simp [localStep], ?_⟩
    intro hc
    exact absurd rfl hc
  case request =>
    simp only [localStep]
    split
    · next err hneg _ => exact hneg
    · exact ⟨h.not_loaded, h.not_failed, h.cancelled⟩
  case storeRequestFailed => exact ⟨h, by simp [localStep, View.store]⟩
  case failUnlock =>
    intro _
    refine ⟨Int.ne_of_lt h.1, ?_⟩
    intro hstate
    exact h.2 (Option.some.inj hstate)
  case storeFailed =>
    have hret : fr.ret ≠ 0 := Int.ne_of_lt h
    simp only [localStep]
    split
    · exact ⟨by simp [View.store], fun _ => by simp [View.store]⟩
    · exact ⟨by simp [View.store], fun _ => by simp [View.store], fun _ _ => hret⟩
  case endCall =>
    simp only [localStep]
    split
    · next hneg => exact hneg
    · exact ⟨h.1, h.2, fun hc hfailed => hend rfl hc hfailed⟩
  case storeEndFailed =>
    exact ⟨by simp [localStep, View.store], fun _ => by simp [localStep, View.store],
      fun _ _ => Int.ne_of_lt h⟩
  case release => exact ⟨h.not_loaded, h.cancelled, h.failed⟩
  case finalSwitch =>
    simp only [localStep]
    split
    · next hstate => exact fun hc => h.cancelled hc hstate
    · next hstate =>
      intro _
      exact ⟨Int.ne_of_lt (Errno.neg_lt_zero _), by simp [hstate]⟩
    · next hstate =>
      intro _
      exact ⟨Int.ne_of_lt (Errno.neg_lt_zero _), by simp [hstate]⟩
    · next hstate =>
      intro hc
      exact ⟨h.failed hc hstate, h.not_loaded⟩
    · next hstate => exact h.not_loaded hstate
  case storeLoaded => exact fun hc => absurd hc h
  case storeEmpty => exact absurd h id
  case unlock =>
    intro hc
    have hcancelled : Cancelled fr v := by
      simpa [localStep, leave, Cancelled] using hc
    refine ⟨(h hcancelled).1, ?_⟩
    intro hstate
    exact (h hcancelled).2 (Option.some.inj hstate)
  case cleanupTest =>
    simp only [localStep]
    split
    · exact h
    · exact known_uncancelled h
  case cleanupStore => exact h
  case initSetup =>
    simp only [localStep]
    split
    · split
      · exact known_uncancelled h
      · simp only []
        split <;> exact h
    · exact known_uncancelled h
  case initMutex => exact h
  case initAdd =>
    simp only [localStep]
    split
    · exact known_uncancelled h
    · split <;> exact known_uncancelled h
  case returned => exact h

/-! ## What the others do to it -/

/-- What a thread outside of the lock does to a context: nothing, or one of the
stores of the two cancelling calls. -/
inductive Outside (v : View) : Pc → View → Prop
  | nothing {pc : Pc} : Outside v pc v
  | cancel : Outside v .cancelStore { v with ctx := cancelLoad v.ctx, cancels := v.cancels + 1 }
  | delete : Outside v .cleanupStore
      { v.store .deleted with cancels := v.cancels + 1, deleted := true }
  | noKobject : v.ctx.kobjAdded = false →
      Outside v .cleanupTest { v with cancels := v.cancels + 1 }
  | unplug : Outside v .cleanupDel { v with ctx := { v.ctx with kobjAdded := false } }

theorem localStep_outside (cb : Callbacks) (e : External) {pc : Pc} {fr : Frame Cid} (v : View)
    (hpc : pc.holds = false) (hcall : ¬ fr.call.initializes) (hserves : pc.serves fr.call)
    (hret : pc ≠ .returned) : Outside v pc (localStep cb e pc fr v).view := by
  cases pc
  case lock => exact .nothing
  case cancelStore => exact .cancel
  case cleanupStore => exact .delete
  case cleanupDel => exact .unplug
  case cleanupTest =>
    simp only [localStep]
    split
    · exact .nothing
    · next hkobj => exact .noKobject (Bool.eq_false_iff.mpr hkobj)
  case initSetup | initMutex | initAdd => exact absurd hserves hcall
  case returned => exact absurd rfl hret
  all_goals cases hpc

/-- A cancelling store finds no load of the context behind its final switch and about
to return 0. -/
def InTime (pc : Pc) (fr : Frame Cid) : Prop :=
  pc ≠ .storeLoaded ∧ (pc = .unlock → fr.ret ≠ 0)

/-- A store of `FW_EMPTY` or `FW_DELETED` in time disturbs no load. -/
theorem Known.cancel {pc : Pc} {fr : Frame Cid} {v v' : View} (h : Known pc fr v)
    (hpc : pc.holds = true) (hstate : v'.ctx.state = .empty ∨ v'.ctx.state = .deleted)
    (hintime : InTime pc fr) : Known pc fr v' := by
  have hloaded : v'.ctx.state ≠ .loaded := by
    rcases hstate with hs | hs <;> simp [hs]
  have hfailed : v'.ctx.state ≠ .failed := by
    rcases hstate with hs | hs <;> simp [hs]
  have hloading : v'.ctx.state ≠ .loading := by
    rcases hstate with hs | hs <;> simp [hs]
  cases pc
  case request | start | loopHead | write | read => exact ⟨hloaded, hfailed, fun _ => hloading⟩
  case failUnlock => exact ⟨h.1, hloaded⟩
  case endCall => exact ⟨hloaded, fun _ => hloading⟩
  case release | finalSwitch =>
    exact ⟨hloaded, fun _ => hloading, fun _ hf => absurd hf hfailed⟩
  case storeLoaded => exact absurd rfl hintime.1
  case unlock => exact fun _ => ⟨hintime.2 rfl, hloaded⟩
  case cancelStore | lock | cleanupTest | cleanupStore | cleanupDel | initSetup | initMutex
    | initAdd | returned => cases hpc
  all_goals exact h

/-- Nothing that a load knows depends on `kobj_added`. -/
theorem Known.unplug {pc : Pc} {fr : Frame Cid} {v : View} (h : Known pc fr v) :
    Known pc fr { v with ctx := { v.ctx with kobjAdded := false } } := by
  cases pc
  case request | start | loopHead | write | read =>
    exact ⟨h.not_loaded, h.not_failed, h.cancelled⟩
  case release | finalSwitch => exact ⟨h.not_loaded, h.cancelled, h.failed⟩
  all_goals exact h

/-- Outside of a load in flight nothing depends on the context. -/
theorem Known.not_inFlight {pc : Pc} {fr : Frame Cid} {v v' : View} (h : Known pc fr v)
    (hpc : pc.inFlight = false) : Known pc fr v' := by
  cases pc <;> first | exact h | cases hpc

theorem Pc.inFlight_holds {pc : Pc} (h : pc.inFlight = true) : pc.holds = true := by
  cases pc <;> first | rfl | cases h

theorem Call.entry_known (c : Call Cid) (v : View) : Known c.entry c.frame v := by
  cases c with
  | fwLoad c load =>
    simp only [Call.entry]
    split
    · exact rfl
    · trivial
  | fwCleanup c => exact rfl
  | fwInitialize c node dev => exact rfl

/-- The moving thread, seen from a load inside the lock: it is outside, so it can only
have cancelled. -/
theorem known_of_outside {v v' : View} {pc pc' : Pc} {fr' : Frame Cid} (h : Outside v pc v')
    (hknown : Known pc' fr' v) (hin : pc'.holds = true)
    (hintime : pc = .cancelStore ∨ pc = .cleanupStore → InTime pc' fr')
    (hkobj : pc = .cleanupTest → v.ctx.kobjAdded = false → pc'.inFlight = false) :
    Known pc' fr' v' := by
  cases h with
  | nothing => exact hknown
  | cancel => exact hknown.cancel hin (Or.inl rfl) (hintime (Or.inl rfl))
  | delete => exact hknown.cancel hin (Or.inr rfl) (hintime (Or.inr rfl))
  | noKobject hnone => exact hknown.not_inFlight (hkobj rfl hnone)
  | unplug => exact hknown.unplug

/-! ## No cancellation is lost -/

section NotLost

variable [DecidableEq Tid] [DecidableEq Cid] {ops : Cid → Callbacks} {ctx : Cid → FwContext}
  {fresh : Cid → Bool} {s : Sys Tid Cid}

/-- The steps that lose no cancellation. -/
structure CancelSafe (s : Sys Tid Cid) (a : Tid × Input Cid) : Prop where
  loadCalls : LoadCalls s a
  /-- No cancelling store while a load of the context is about to return 0. -/
  inTime : ∀ pc fr, s.threads a.1 = .running pc fr → pc = .cancelStore ∨ pc = .cleanupStore →
    ∀ u pc' fr', s.threads u = .running pc' fr' → fr'.call.cid = fr.call.cid → InTime pc' fr'
  /-- No `fw_cleanup` that has nothing to clean up while a load is in flight. -/
  noKobject : ∀ fr, s.threads a.1 = .running .cleanupTest fr →
    (s.shared.view fr.call.cid).ctx.kobjAdded = false →
    ∀ u pc' fr', s.threads u = .running pc' fr' → fr'.call.cid = fr.call.cid →
      pc'.inFlight = false
  endHonest : ∀ pc fr e, s.threads a.1 = .running pc fr → a.2 = .go e →
    EndHonest pc e fr (s.shared.view fr.call.cid)

/-- Every call knows what its program point says. -/
def KnownAt (_t : Tid) (th : Thread Cid) (g : Shared Tid Cid) : Prop :=
  ∀ pc fr, th = .running pc fr → Known pc fr (g.view fr.call.cid)

theorem reach_known (h : Reach (Pool.step (move ops)) CancelSafe (boot ctx fresh) s) :
    s.All KnownAt := by
  refine Pool.invariant_of_assertions ?_ ?_ ?_ h
  · intro t pc fr hth
    cases hth
  · intro s t i th' g' _ hall hsafe hmove
    cases move_cases hmove with
    | @entered c fresh hout =>
      intro pc fr hth
      cases hth
      exact c.entry_known _
    | @stepped e pc fr o owner hth hpc ho howner =>
      intro pc' fr' hth'
      cases hth'
      have hcall : o.frame.call = fr.call := by
        rw [ho]
        exact localStep_call _ _ _ _ _
      show Known o.pc o.frame (Function.update s.shared.view fr.call.cid o.view o.frame.call.cid)
      rw [hcall, Function.update_self, ho]
      exact localStep_known (hall t pc fr hth) (hsafe.endHonest pc fr e hth rfl)
  · intro s t i th' g' hreach hall hsafe hmove u hut
    have hloads := hreach.mono fun _ _ hguard => hguard.loadCalls
    cases move_cases hmove with
    | entered _ => exact hall u
    | @stepped e pc fr o owner hth hpc ho howner =>
      intro pc' fr' hth'
      have hknown := hall u pc' fr' hth'
      show Known pc' fr' (Function.update s.shared.view fr.call.cid o.view fr'.call.cid)
      by_cases hcid : fr'.call.cid = fr.call.cid
      · rw [hcid, Function.update_self]
        rw [hcid] at hknown
        cases hin : pc'.holds with
        | true =>
          -- thread u is inside the lock, so thread t is outside
          have hout : pc.holds = false := by
            cases hholds : pc.holds with
            | false => rfl
            | true =>
              refine absurd ((reach_mutex (reach_initFree hloads)).exclusive ?_ ?_) hut
              · rw [hth']
                exact hin
              · rw [hth]
                exact hholds
          obtain ⟨hframe, hcall⟩ := reach_threadOk hloads t pc fr hth
          have hserves := (hframe.underway_of_ne hpc).serves
          rw [ho]
          exact known_of_outside (localStep_outside _ e _ hout hcall hserves hpc) hknown hin
            (fun hstore => hsafe.inTime pc fr hth hstore u pc' fr' hth' hcid)
            (fun htest hnone => hsafe.noKobject fr (htest ▸ hth) hnone u pc' fr' hth' hcid)
        | false =>
          refine hknown.not_inFlight (Bool.eq_false_iff.mpr fun hflight => ?_)
          rw [Pc.inFlight_holds hflight] at hin
          cases hin
      · rw [Function.update_of_ne hcid]
        exact hknown

/-- **No cancellation is lost**: in every run whose steps are `CancelSafe`, a load
that was cancelled after it stored `FW_LOADING` and before it returned does not
return 0, and does not leave `FW_LOADED`. -/
theorem fw_cancel_not_lost
    (h : Reach (Pool.step (move ops)) CancelSafe (boot ctx fresh) s) {t : Tid} {fr : Frame Cid}
    (hret : s.threads t = .running .returned fr) (hcancelled : fr.cancelled = true) :
    fr.ret ≠ 0 ∧ fr.finalState ≠ some .loaded :=
  reach_known h t _ fr hret hcancelled

end NotLost

/-- A load of four bytes up to the write of its only block. -/
def loadFourBytes : List (Bool × Input Unit) :=
  (true, .call (.fwLoad () 1)) :: List.replicate 3 (true, proceed Unit) ++
    [(true, .go ⟨0, .ok ⟨4, some fun _ => 255, none⟩⟩), (true, proceed Unit), (true, proceed Unit),
      (true, .go (answer 4))]

/-- Another thread cancels. -/
def cancelNow : List (Bool × Input Unit) :=
  [(false, .call (.fwLoad () 0)), (false, proceed Unit)]

/-- An executable check of `CancelSafe` for two threads that do not clean up. -/
def cancelCheck (s : Sys Bool Unit) (a : Bool × Input Unit) : Bool :=
  a.2.loadCall &&
  match s.threads a.1 with
  | .running .cancelStore _ =>
    match s.threads (!a.1) with
    | .running pc _ => pc != .storeLoaded && pc != .unlock
    | .idle => true
  | .running .cleanupStore _ | .running .cleanupTest _ => false
  | .running .endCall _ => (s.shared.view ()).ctx.state != .failed
  | _ => true

theorem cancelCheck_sound (s : Sys Bool Unit) (a : Bool × Input Unit)
    (h : cancelCheck s a = true) : CancelSafe s a := by
  obtain ⟨hcall, hthread⟩ := Bool.and_eq_true_iff.mp h
  refine ⟨loadCalls_of_loadCall hcall, ?_, ?_, ?_⟩
  · intro pc fr hth hstore u pc' fr' hth' _
    rcases hstore with rfl | rfl
    · rw [hth] at hthread
      by_cases hu : u = a.1
      · rw [hu, hth] at hth'
        cases hth'
        exact ⟨by simp, by simp⟩
      · rw [show (!a.1) = u by cases u <;> cases h1 : a.1 <;> simp_all, hth'] at hthread
        simp only [Bool.and_eq_true, bne_iff_ne, ne_eq] at hthread
        exact ⟨hthread.1, fun hpc => absurd hpc hthread.2⟩
    · rw [hth] at hthread
      cases hthread
  · intro fr hth
    rw [hth] at hthread
    cases hthread
  · intro pc fr e hth _ hpc _ hfailed
    subst hpc
    rw [hth] at hthread
    rw [show (s.shared.view ()).ctx.state = .failed from hfailed] at hthread
    cases hthread

/-- Cancelled behind its last block, but before the final switch. -/
theorem fw_cancel_not_lost_in_time :
    ∃ s : Sys Bool Unit, ∃ fr,
      Reach (Pool.step (move fun _ => ⟨true, true, false, true⟩)) CancelSafe
        (boot (fun _ => .zero) fun _ => false) s ∧
      s.threads true = .running .returned fr ∧ fr.cancelled = true ∧
      fr.ret ≠ 0 ∧ fr.finalState ≠ some .loaded := by
  obtain ⟨s, fr, hrun, hth, hcancelled⟩ : ∃ s : Sys Bool Unit, ∃ fr,
      runFrom (checked (Pool.step (move fun _ => ⟨true, true, false, true⟩)) cancelCheck)
        (boot (fun _ => .zero) fun _ => false)
        (loadFourBytes ++ cancelNow ++ List.replicate 6 (true, proceed Unit)) = some s ∧
      s.threads true = .running .returned fr ∧ fr.cancelled = true := ⟨_, _, rfl, rfl, rfl⟩
  have hreach := reach_checked cancelCheck_sound hrun
  exact ⟨s, fr, hreach, hth, hcancelled, fw_cancel_not_lost hreach hth hcancelled⟩

/-- Cancelled between the final switch and the store of `FW_LOADED`: the load returns
0 and leaves `FW_LOADED`. -/
theorem fw_cancel_lost :
    ∃ s : Sys Bool Unit, ∃ fr,
      runFrom (Pool.step (move fun _ => ⟨true, true, false, true⟩))
        (boot (fun _ => .zero) fun _ => false)
        (loadFourBytes ++ List.replicate 5 (true, proceed Unit) ++ cancelNow ++
          List.replicate 2 (true, proceed Unit)) = some s ∧
      s.threads true = .running .returned fr ∧ fr.cancelled = true ∧
      fr.ret = 0 ∧ fr.finalState = some .loaded ∧
      (s.shared.view ()).ctx.state = .loaded :=
  ⟨_, _, rfl, rfl, rfl, rfl, rfl, rfl⟩

/-! ## `FW_DELETED` is final -/

/-- A state in which the state check rejects a load. -/
def Closed (st : FwState) : Prop := st ≠ .empty ∧ st ≠ .failed

/-- The statements that store `FW_EMPTY` or `FW_FAILED`. -/
def Pc.reopens : Pc → Bool
  | cancelStore | storeRequestFailed | storeFailed | storeEndFailed | storeEmpty => true
  | _ => false

/-- A deleted context stays closed, unless someone stores `FW_EMPTY` or `FW_FAILED`. -/
theorem localStep_closed (cb : Callbacks) (e : External) {pc : Pc} {fr : Frame Cid} {v : View}
    (h : v.deleted = true → Closed v.ctx.state) (hkept : pc.reopens = true → v.deleted = false)
    (hcall : ¬ fr.call.initializes) (hserves : pc.serves fr.call) :
    (localStep cb e pc fr v).view.deleted = true →
      Closed (localStep cb e pc fr v).view.ctx.state := by
  have hreopen : pc.reopens = true → v.deleted = true →
      Closed (localStep cb e pc fr v).view.ctx.state := by
    intro hpc hdel
    rw [hkept hpc] at hdel
    cases hdel
  have hloop : ∀ pc, (loopStep cb e pc fr v).2.2.deleted = true →
      Closed (loopStep cb e pc fr v).2.2.ctx.state := by
    intro pc
    have hok := loopStep_ok cb e pc fr v
    rw [hok.deleted, hok.state]
    exact h
  cases pc
  case start | loopHead | write | read => exact hloop _
  case cancelStore | storeRequestFailed | storeFailed | storeEndFailed | storeEmpty =>
    exact hreopen rfl
  case storeLoading | storeLoaded | cleanupStore =>
    intro _
    exact ⟨by simp [localStep, View.store], by simp [localStep, View.store]⟩
  case check | request | finalSwitch | cleanupTest =>
    simp only [localStep]
    split <;> exact h
  case initSetup | initMutex | initAdd => exact absurd hserves hcall
  all_goals exact h

/-- The state check lets nobody pass on a closed context. -/
theorem localStep_late (cb : Callbacks) (e : External) {pc : Pc} {fr : Frame Cid} {v : View}
    (h : v.deleted = true → Closed v.ctx.state) (hlate : fr.late = false) :
    (localStep cb e pc fr v).frame.late = false := by
  cases pc
  case start | loopHead | write | read =>
    exact (loopStep_ok cb e _ fr v).late.trans hlate
  case check =>
    simp only [localStep]
    have hopen : ¬ Closed v.ctx.state → v.deleted = false := fun hnot =>
      Bool.eq_false_iff.mpr fun hdel => hnot (h hdel)
    split
    · exact hlate
    · exact hlate
    · exact hlate
    · next hstate => exact hopen fun hclosed => hclosed.1 hstate
    · next hstate => exact hopen fun hclosed => hclosed.2 hstate
  case request | finalSwitch | cleanupTest =>
    simp only [localStep]
    split <;> exact hlate
  case initSetup =>
    simp only [localStep]
    split
    · split <;> exact hlate
    · exact hlate
  case initAdd =>
    simp only [localStep]
    split
    · exact hlate
    · split <;> exact hlate
  all_goals exact hlate

section Deleted

variable [DecidableEq Tid] [DecidableEq Cid] {ops : Cid → Callbacks} {ctx : Cid → FwContext}
  {fresh : Cid → Bool} {s : Sys Tid Cid}

/-- The steps that keep a deleted context closed. -/
structure DeletedKept (s : Sys Tid Cid) (a : Tid × Input Cid) : Prop where
  loadCalls : LoadCalls s a
  kept : ∀ pc fr, s.threads a.1 = .running pc fr → pc.reopens = true →
    (s.shared.view fr.call.cid).deleted = false

/-- Deleted contexts are closed, and no call has passed its check on one. -/
structure DeletedInv (s : Sys Tid Cid) : Prop where
  closed : ∀ c, (s.shared.view c).deleted = true → Closed (s.shared.view c).ctx.state
  late : ∀ t pc fr, s.threads t = .running pc fr → fr.late = false

theorem step_deletedInv {s' : Sys Tid Cid} {a : Tid × Input Cid} (h : DeletedInv s)
    (hthreads : s.All (ThreadOk ops)) (hkept : DeletedKept s a)
    (hstep : s.step (move ops) a = some s') : DeletedInv s' := by
  obtain ⟨t, i⟩ := a
  obtain ⟨th', g', hmove, rfl⟩ := Pool.step_cases hstep
  -- threads that do not move keep their frame
  have hothers : (∀ pc fr, th' = .running pc fr → fr.late = false) →
      ∀ u pc fr, Function.update s.threads t th' u = .running pc fr → fr.late = false := by
    intro hmoved u pc fr hu
    by_cases hut : u = t
    · subst hut
      rw [Function.update_self] at hu
      exact hmoved pc fr hu
    · rw [Function.update_of_ne hut] at hu
      exact h.late u pc fr hu
  cases move_cases hmove with
  | @entered c fresh hout =>
    refine ⟨h.closed, hothers ?_⟩
    intro pc fr hth
    cases hth
    rfl
  | @stepped e pc fr o owner hth hpc ho howner =>
    obtain ⟨hframe, hcall⟩ := hthreads t pc fr hth
    constructor
    · intro c
      show (Function.update s.shared.view fr.call.cid o.view c).deleted = true →
        Closed (Function.update s.shared.view fr.call.cid o.view c).ctx.state
      by_cases hcid : c = fr.call.cid
      · subst hcid
        rw [Function.update_self, ho]
        exact localStep_closed _ e (h.closed _) (hkept.kept pc fr hth) hcall
          (hframe.underway_of_ne hpc).serves
      · rw [Function.update_of_ne hcid]
        exact h.closed c
    · refine hothers ?_
      intro pc' fr' hth'
      cases hth'
      rw [ho]
      exact localStep_late _ e (h.closed _) (h.late t pc fr hth)

theorem reach_deletedInv (h : Reach (Pool.step (move ops)) DeletedKept (boot ctx fresh) s) :
    DeletedInv s := by
  have hboot : DeletedInv (boot ctx fresh : Sys Tid Cid) := by
    constructor
    · intro c hdel
      cases hdel
    · intro t pc fr hth
      cases hth
  refine h.invariant_reached hboot fun hreach hinv hkept hstep => ?_
  exact step_deletedInv hinv
    (reach_threadOk (hreach.mono fun _ _ hguard => hguard.loadCalls)) hkept hstep

/-- **`FW_DELETED` is final**, in every run in which nobody stores `FW_EMPTY` or
`FW_FAILED` in a deleted context: a deleted context stays in a state the check
rejects, and every call that is at `request_firmware` or at a `start` or `write`
callback had passed its check before `fw_cleanup` stored `FW_DELETED`. -/
theorem fw_deleted_is_final
    (h : Reach (Pool.step (move ops)) DeletedKept (boot ctx fresh) s) :
    (∀ c, (s.shared.view c).deleted = true → Closed (s.shared.view c).ctx.state) ∧
    ∀ t pc fr, s.threads t = .running pc fr → pc = .request ∨ pc = .start ∨ pc = .write →
      fr.late = false := by
  have hinv := reach_deletedInv h
  exact ⟨hinv.closed, fun t pc fr hth _ => hinv.late t pc fr hth⟩

end Deleted

/-- A context whose kobject is in sysfs. -/
def addedContext : FwContext := { FwContext.zero with kobjInit := true, kobjAdded := true }

/-- `fw_cleanup` by one thread. -/
def cleanupNow : List (Bool × Input Unit) :=
  (false, .call (.fwCleanup ())) :: List.replicate 3 (false, proceed Unit)

/-- An executable check of `DeletedKept`. -/
def keptCheck (s : Sys Bool Unit) (a : Bool × Input Unit) : Bool :=
  a.2.loadCall &&
  match s.threads a.1 with
  | .running pc _ => !pc.reopens
  | .idle => true

theorem keptCheck_sound (s : Sys Bool Unit) (a : Bool × Input Unit)
    (h : keptCheck s a = true) : DeletedKept s a := by
  obtain ⟨hcall, hthread⟩ := Bool.and_eq_true_iff.mp h
  refine ⟨loadCalls_of_loadCall hcall, fun pc fr hth hpc => ?_⟩
  rw [hth] at hthread
  simp [hpc] at hthread

/-- A load that had passed its check when the context was deleted. -/
theorem fw_deleted_is_final_passed_before :
    ∃ s : Sys Bool Unit, ∃ fr,
      Reach (Pool.step (move fun _ => ⟨true, true, false, true⟩)) DeletedKept
        (boot (fun _ => addedContext) fun _ => false) s ∧
      (s.shared.view ()).deleted = true ∧ s.threads true = .running .request fr ∧
      fr.late = false := by
  obtain ⟨s, fr, hrun, hdel, hth⟩ : ∃ s : Sys Bool Unit, ∃ fr,
      runFrom (checked (Pool.step (move fun _ => ⟨true, true, false, true⟩)) keptCheck)
        (boot (fun _ => addedContext) fun _ => false)
        ((true, .call (.fwLoad () 1)) :: List.replicate 2 (true, proceed Unit) ++ cleanupNow ++
          [(true, proceed Unit)]) = some s ∧
      (s.shared.view ()).deleted = true ∧ s.threads true = .running .request fr :=
    ⟨_, _, rfl, rfl, rfl⟩
  have hreach := reach_checked keptCheck_sound hrun
  exact ⟨s, fr, hreach, hdel, hth, (fw_deleted_is_final hreach).2 true _ fr hth (.inl rfl)⟩

/-- A cancellation after `fw_cleanup` stores `FW_EMPTY` over `FW_DELETED`, and the next
load goes on to `request_firmware`. -/
theorem fw_deleted_reopened :
    ∃ s : Sys Bool Unit, ∃ fr,
      runFrom (Pool.step (move fun _ => ⟨true, true, false, true⟩))
        (boot (fun _ => addedContext) fun _ => false)
        (cleanupNow ++ cancelNow ++
          (true, .call (.fwLoad () 1)) :: List.replicate 3 (true, proceed Unit)) = some s ∧
      s.threads true = .running .request fr ∧ fr.late = true :=
  ⟨_, _, rfl, rfl, rfl⟩

end LinuxDeviceDriver.Memloader.Threads
