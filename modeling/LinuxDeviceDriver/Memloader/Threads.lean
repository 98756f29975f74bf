import LinuxDeviceDriver.Lib.Mutex
import LinuxDeviceDriver.Lib.Pool
import LinuxDeviceDriver.Memloader.Load

/-!
# Concurrent loads, cancellations, cleanups and initialisations

`fw_load_device_firmware`, `fw_cleanup` and `fw_initialize` statement by statement,
executed by any number of threads on any number of contexts. Every access to
`ctx->state` is a step of its own, and so is every operation on `serial_lock`, the
one mutex all contexts share.

A step of a call only sees its own local variables (`Frame`) and its own context
(`View`), and says what it does to the lock; `localStep` is this function.
`move` lifts it to the pool of all threads. Callbacks and `request_firmware` may
return anything: their results come with the step (`External`).

`state` is a bit field of eight bits, in one `unsigned int` with `kobj_init` and `kobj_added`. It
fills a byte of its own, so that a store to it is taken for a byte store: it leaves the other two
alone, and they leave it alone. The two share the next byte; they are taken for independent as well.

A call's last access to shared data is its `mutex_unlock`, so the unlock and the
return are one step.

Some variables are not in the source, and no step depends on them: the log of a
call, and the counts that tell whether a load has been cancelled since it stored
`FW_LOADING` and whether a call made its state check after `fw_cleanup` had stored
`FW_DELETED`.
-/

namespace LinuxDeviceDriver.Memloader

open Lib

namespace Threads

/-! ## Calls and their local variables -/

/-- The entry points, with their arguments. -/
inductive Call (Cid : Type)
  | fwLoad (c : Cid) (load : Int)
  | fwCleanup (c : Cid)
  | fwInitialize (c : Cid) (node : DtNode) (dev : Option Nat)

def Call.cid {Cid : Type} : Call Cid → Cid
  | fwLoad c _ | fwCleanup c | fwInitialize c _ _ => c

/-- What a call does to the lock and to its image. -/
inductive Event
  | locked
  | gotImage
  | ended
  | released
  | unlocked
deriving DecidableEq, Repr

/-- The next statement of a call. -/
inductive Pc
  -- fw_load_device_firmware
  | cancelStore
  | lock
  | check
  | rejectUnlock
  | storeLoading
  | request
  | storeRequestFailed
  | failUnlock
  | start
  | loopHead
  | write
  | read
  | storeFailed
  | endCall
  | storeEndFailed
  | release
  | finalSwitch
  | storeLoaded
  | storeEmpty
  | unlock
  -- fw_cleanup
  | cleanupTest
  | cleanupStore
  | cleanupDel
  -- fw_initialize
  | initSetup
  | initMutex
  | initAdd
  | returned
deriving DecidableEq, Repr

/-- Between taking `serial_lock` and releasing it. -/
def Pc.holds : Pc → Bool
  | check | rejectUnlock | storeLoading | request | storeRequestFailed | failUnlock | start
  | loopHead | write | read | storeFailed | endCall | storeEndFailed | release | finalSwitch
  | storeLoaded | storeEmpty | unlock => true
  | _ => false

/-- The local variables of a call. Not in the source: `log`; `seen`, the number of
cancellations of the context when the call stored `FW_LOADING`; `late`, whether the
call passed its state check after the context had been deleted; and, from the
return on, `cancelled` and `finalState`. -/
structure Frame (Cid : Type) where
  call : Call Cid
  ret : Int
  prevDelayCount : Int
  prevReadCount : Int
  currCount : Int
  log : List Event
  seen : Nat
  late : Bool
  cancelled : Bool
  finalState : Option FwState

/-- A context, with the number of cancellations it has seen and whether
`fw_cleanup` has stored `FW_DELETED` in it. -/
structure View where
  ctx : FwContext
  cancels : Nat
  deleted : Bool

/-- Which callbacks are not `NULL`. -/
structure Callbacks where
  start : Bool
  write : Bool
  read : Bool
  endOp : Bool

/-- What the outside answers in a step: the result of a callback or of
`kobject_add`, and the result of `request_firmware`. -/
structure External where
  ret : Int
  req : RequestResult

/-- A callback or `kobject_add` answers `ret`; `request_firmware` would not find the file. -/
def answer (ret : Int) : External := ⟨ret, .fail (-2) (by decide)⟩

/-- What a step does to `serial_lock`. -/
inductive LockOp
  | keep
  | acquire
  | release
  | init
deriving DecidableEq, Repr

structure Outcome (Cid : Type) where
  pc : Pc
  frame : Frame Cid
  view : View
  lock : LockOp

variable {Tid Cid : Type}

/-! ## One step of a call -/

/-- `ctx->state = st`. -/
def View.store (v : View) (st : FwState) : View :=
  { v with ctx := { v.ctx with state := st } }

/-- The locals of a load next to its context, as the sequential load has them. -/
def Frame.load (fr : Frame Cid) (v : View) : LoadState Unit where
  ctx := v.ctx
  world := ()
  ret := fr.ret
  prevDelayCount := fr.prevDelayCount
  prevReadCount := fr.prevReadCount
  currCount := fr.currCount
  heads := 0

def Frame.ofLoad (fr : Frame Cid) (l : LoadState Unit) : Frame Cid :=
  { fr with
    ret := l.ret
    prevDelayCount := l.prevDelayCount
    prevReadCount := l.prevReadCount
    currCount := l.currCount }

/-- Where the code behind the load loop goes on. -/
def behindLoop (cb : Callbacks) (ret : Int) : Pc :=
  if ret < 0 then .storeFailed else if cb.endOp then .endCall else .release

/-- Release the lock and return, keeping a record of how the load ended. -/
def leave (fr : Frame Cid) (v : View) (inFlight : Bool) : Outcome Cid where
  pc := .returned
  frame := { fr with
    log := fr.log ++ [.unlocked]
    cancelled := inFlight && (v.cancels != fr.seen)
    finalState := some v.ctx.state }
  view := v
  lock := .release

/-- One statement of the load loop's neighbourhood, from `start` to the loop exit. -/
def loopStep (cb : Callbacks) (e : External) (pc : Pc) (fr : Frame Cid) (v : View) :
    Pc × Frame Cid × View :=
  match pc with
  | .start =>
    let ret := if cb.start then e.ret else fr.ret
    if cb.write ∧ ret ≥ 0 then
      (.loopHead, { fr with ret := ret },
        { v with ctx := (fr.load v).loopEntry.ctx })
    else (behindLoop cb ret, { fr with ret := ret }, v)
  | .loopHead =>
    if v.ctx.currentCount < v.ctx.totalCount ∧ v.ctx.state = .loading then (.write, fr, v)
    else (behindLoop cb fr.ret, fr, v)
  | .write =>
    if e.ret ≤ 0 then (behindLoop cb e.ret, { fr with ret := e.ret }, v)
    else
      let l := (fr.load v).written e.ret ()
      (.read, fr.ofLoad l, { v with ctx := l.ctx })
  | _ =>
    -- the part of the loop body behind a successful write
    let l := fr.load v
    if cb.read ∧ l.readDue then
      if e.ret < 0 then (behindLoop cb e.ret, { fr with ret := e.ret }, v)
      else (.loopHead,
        fr.ofLoad ({ l with ret := e.ret, prevReadCount := l.currCount }).nap, v)
    else (.loopHead, fr.ofLoad l.nap, v)

/-- One statement of a call. -/
def localStep (cb : Callbacks) (e : External) (pc : Pc) (fr : Frame Cid) (v : View) :
    Outcome Cid :=
  match pc with
  | .cancelStore =>
    ⟨.returned, { fr with ret := 0 }, { v with ctx := cancelLoad v.ctx, cancels := v.cancels + 1 },
      .keep⟩
  | .lock => ⟨.check, { fr with log := fr.log ++ [.locked] }, v, .acquire⟩
  | .check =>
    match v.ctx.state with
    | .loading | .loaded | .deleted =>
      ⟨.rejectUnlock, { fr with ret := Errno.einval.neg }, v, .keep⟩
    | .empty | .failed => ⟨.storeLoading, { fr with late := v.deleted }, v, .keep⟩
  | .rejectUnlock => leave fr v false
  | .storeLoading =>
    ⟨.request,
      { fr with prevDelayCount := 0, prevReadCount := 0, currCount := 0, seen := v.cancels },
      { v with ctx := { v.ctx with state := .loading, currentCount := 0, totalCount := 0 } },
      .keep⟩
  | .request =>
    match e.req with
    | .fail err _ => ⟨.storeRequestFailed, { fr with ret := err }, v, .keep⟩
    | .ok fw =>
      ⟨.start, { fr with ret := 0, log := fr.log ++ [.gotImage] },
        { v with ctx := { v.ctx with
            fw := some fw, data := fw.data, totalCount := toInt32 fw.size } }, .keep⟩
  | .storeRequestFailed => ⟨.failUnlock, fr, v.store .failed, .keep⟩
  | .failUnlock => leave fr v true
  | .start | .loopHead | .write | .read =>
    let r := loopStep cb e pc fr v
    ⟨r.1, r.2.1, r.2.2, .keep⟩
  | .storeFailed => ⟨if cb.endOp then .endCall else .release, fr, v.store .failed, .keep⟩
  | .endCall =>
    -- end(ctx, ctx->state != FW_LOADING)
    ⟨if e.ret < 0 then .storeEndFailed else .release,
      { fr with ret := e.ret, log := fr.log ++ [.ended] }, v, .keep⟩
  | .storeEndFailed => ⟨.release, fr, v.store .failed, .keep⟩
  | .release => ⟨.finalSwitch, { fr with log := fr.log ++ [.released] }, v, .keep⟩
  | .finalSwitch =>
    match v.ctx.state with
    | .loading => ⟨.storeLoaded, fr, v, .keep⟩
    | .empty | .deleted => ⟨.unlock, { fr with ret := Errno.eio.neg }, v, .keep⟩
    | .failed => ⟨.unlock, fr, v, .keep⟩
    | .loaded => ⟨.storeEmpty, fr, v, .keep⟩
  | .storeLoaded => ⟨.unlock, { fr with ret := 0 }, v.store .loaded, .keep⟩
  | .storeEmpty => ⟨.unlock, fr, v.store .empty, .keep⟩
  | .unlock => leave fr v true
  | .cleanupTest =>
    if v.ctx.kobjAdded then ⟨.cleanupStore, fr, v, .keep⟩
    else ⟨.returned, fr, { v with cancels := v.cancels + 1 }, .keep⟩
  | .cleanupStore =>
    ⟨.cleanupDel, fr, { v.store .deleted with cancels := v.cancels + 1, deleted := true }, .keep⟩
  | .cleanupDel =>
    ⟨.returned, fr, { v with ctx := { v.ctx with kobjAdded := false } }, .keep⟩
  | .initSetup =>
    match fr.call with
    | .fwInitialize _ node dev =>
      let (ret, ctx) := fwInitializeContext node dev v.ctx
      if ret ≤ 0 then ⟨.returned, { fr with ret := ret }, { v with ctx := ctx }, .keep⟩
      else ⟨if ctx.kobjInit then .initAdd else .initMutex, fr, { v with ctx := ctx }, .keep⟩
    | _ => ⟨.returned, fr, v, .keep⟩
  | .initMutex =>
    ⟨.initAdd, fr, { v with ctx := { v.ctx with kobjInit := true } }, .init⟩
  | .initAdd =>
    if v.ctx.kobjAdded then ⟨.returned, { fr with ret := 0 }, v, .keep⟩
    else if e.ret ≠ 0 then ⟨.returned, { fr with ret := e.ret }, v, .keep⟩
    else
      ⟨.returned, { fr with ret := 0 }, { v with ctx := { v.ctx with kobjAdded := true } }, .keep⟩
  | .returned => ⟨.returned, fr, v, .keep⟩

/-! ### What a statement leaves alone -/

/-- A statement around the load loop: it ends at the loop again or behind it, and
touches neither `ctx->state` nor the ghost variables. -/
structure LoopOk (cb : Callbacks) (fr : Frame Cid) (v : View) (r : Pc × Frame Cid × View) :
    Prop where
  pc : r.1 = .loopHead ∨ r.1 = .write ∨ r.1 = .read ∨ r.1 = behindLoop cb r.2.1.ret
  call : r.2.1.call = fr.call
  log : r.2.1.log = fr.log
  seen : r.2.1.seen = fr.seen
  late : r.2.1.late = fr.late
  state : r.2.2.ctx.state = v.ctx.state
  cancels : r.2.2.cancels = v.cancels
  deleted : r.2.2.deleted = v.deleted

theorem loopStep_ok (cb : Callbacks) (e : External) (pc : Pc) (fr : Frame Cid) (v : View) :
    LoopOk cb fr v (loopStep cb e pc fr v) := by
  unfold loopStep
  split
  · simp only []
    generalize (if cb.start then e.ret else fr.ret) = ret
    split
    · exact ⟨Or.inl rfl, rfl, rfl, rfl, rfl, rfl, rfl, rfl⟩
    · exact ⟨Or.inr (Or.inr (Or.inr rfl)), rfl, rfl, rfl, rfl, rfl, rfl, rfl⟩
  · split
    · exact ⟨Or.inr (Or.inl rfl), rfl, rfl, rfl, rfl, rfl, rfl, rfl⟩
    · exact ⟨Or.inr (Or.inr (Or.inr rfl)), rfl, rfl, rfl, rfl, rfl, rfl, rfl⟩
  · split
    · exact ⟨Or.inr (Or.inr (Or.inr rfl)), rfl, rfl, rfl, rfl, rfl, rfl, rfl⟩
    · exact ⟨Or.inr (Or.inr (Or.inl rfl)), rfl, rfl, rfl, rfl, rfl, rfl, rfl⟩
  · simp only []
    split
    · split
      · exact ⟨Or.inr (Or.inr (Or.inr rfl)), rfl, rfl, rfl, rfl, rfl, rfl, rfl⟩
      · exact ⟨Or.inl rfl, rfl, rfl, rfl, rfl, rfl, rfl, rfl⟩
    · exact ⟨Or.inl rfl, rfl, rfl, rfl, rfl, rfl, rfl, rfl⟩

theorem behindLoop_cases (cb : Callbacks) (ret : Int) :
    (ret < 0 ∧ behindLoop cb ret = .storeFailed) ∨
    (0 ≤ ret ∧ cb.endOp = true ∧ behindLoop cb ret = .endCall) ∨
    (0 ≤ ret ∧ cb.endOp = false ∧ behindLoop cb ret = .release) := by
  unfold behindLoop
  by_cases hret : ret < 0
  · exact Or.inl ⟨hret, if_pos hret⟩
  · rw [if_neg hret]
    cases hend : cb.endOp with
    | true => exact Or.inr (Or.inl ⟨Int.not_lt.mp hret, rfl, rfl⟩)
    | false => exact Or.inr (Or.inr ⟨Int.not_lt.mp hret, rfl, rfl⟩)

/-- A call stays the same call. -/
theorem localStep_call (cb : Callbacks) (e : External) (pc : Pc) (fr : Frame Cid) (v : View) :
    (localStep cb e pc fr v).frame.call = fr.call := by
  cases pc
  case start | loopHead | write | read => exact (loopStep_ok cb e _ fr v).call
  case check | request | finalSwitch | cleanupTest =>
    simp only [localStep]
    split <;> rfl
  case initSetup =>
    simp only [localStep]
    split
    · split <;> rfl
    · rfl
  case initAdd =>
    simp only [localStep]
    split
    · rfl
    · split <;> rfl
  all_goals rfl

/-! ## The pool -/

/-- A thread is outside of the driver, or executes a call. -/
inductive Thread (Cid : Type)
  | idle
  | running (pc : Pc) (frame : Frame Cid)

def Thread.holds : Thread Cid → Bool
  | idle => false
  | running pc _ => pc.holds

/-- The lock, the contexts, and which contexts no call has been made on yet. -/
structure Shared (Tid Cid : Type) where
  owner : Option Tid
  view : Cid → View
  fresh : Cid → Bool

/-- All threads over the shared data. -/
abbrev Sys (Tid Cid : Type) := Pool Tid (Thread Cid) (Shared Tid Cid)

/-- A call arrives, or the thread goes on. -/
inductive Input (Cid : Type)
  | call (c : Call Cid)
  | go (e : External)

/-- What the lock does with an operation of thread `t`; taking it waits until it is
free, and initialising it makes it free. -/
def LockOp.apply (owner : Option Tid) (t : Tid) : LockOp → Option (Option Tid)
  | keep => some owner
  | acquire =>
    match owner with
    | none => some (some t)
    | some _ => none
  | release => some none
  | init => some none

/-- The first statement of a call. -/
def Call.entry : Call Cid → Pc
  | fwLoad _ load => if load = 0 then .cancelStore else .lock
  | fwCleanup _ => .cleanupTest
  | fwInitialize _ _ _ => .initSetup

def Call.frame (c : Call Cid) : Frame Cid where
  call := c
  ret := 0
  prevDelayCount := 0
  prevReadCount := 0
  currCount := 0
  log := []
  seen := 0
  late := false
  cancelled := false
  finalState := none

variable [DecidableEq Cid]

/-- A thread outside of the driver enters it; `fw_initialize` only on a context that
nothing has been done with. -/
def enter (g : Shared Tid Cid) (c : Call Cid) : Option (Thread Cid × Shared Tid Cid) :=
  let entered := (.running c.entry c.frame, { g with fresh := Function.update g.fresh c.cid false })
  match c with
  | .fwInitialize c _ _ => if g.fresh c then some entered else none
  | _ => some entered

/-- One move of thread `t`. -/
def move (ops : Cid → Callbacks) (t : Tid) (th : Thread Cid) (g : Shared Tid Cid) :
    Input Cid → Option (Thread Cid × Shared Tid Cid)
  | .call c =>
    match th with
    | .idle | .running .returned _ => enter g c
    | _ => none
  | .go e =>
    match th with
    | .idle | .running .returned _ => none
    | .running pc fr =>
      let o := localStep (ops fr.call.cid) e pc fr (g.view fr.call.cid)
      (o.lock.apply g.owner t).map fun owner =>
        (.running o.pc o.frame,
          { g with owner := owner, view := Function.update g.view fr.call.cid o.view })

/-- No call is being executed; `fresh` are the contexts still to be initialised. -/
def boot (ctx : Cid → FwContext) (fresh : Cid → Bool) : Sys Tid Cid where
  threads := fun _ => .idle
  shared := {
    owner := none
    view := fun c => ⟨ctx c, 0, false⟩
    fresh := fresh }

/-! ## What a move can do -/

section Move

variable {ops : Cid → Callbacks} {t : Tid} {th th' : Thread Cid} {g g' : Shared Tid Cid}
  {i : Input Cid}

/-- The moves of a thread: it enters a call, or executes a statement. -/
inductive Moved (ops : Cid → Callbacks) (t : Tid) (th : Thread Cid) (g : Shared Tid Cid) :
    Input Cid → Thread Cid → Shared Tid Cid → Prop
  | entered {c : Call Cid} {fresh : Cid → Bool} : th = .idle ∨ (∃ fr, th = .running .returned fr) →
      Moved ops t th g (.call c) (.running c.entry c.frame) { g with fresh := fresh }
  | stepped {e : External} {pc : Pc} {fr : Frame Cid} {o : Outcome Cid} {owner : Option Tid} :
      th = .running pc fr → pc ≠ .returned →
      o = localStep (ops fr.call.cid) e pc fr (g.view fr.call.cid) →
      o.lock.apply g.owner t = some owner →
      Moved ops t th g (.go e) (.running o.pc o.frame)
        { g with owner := owner, view := Function.update g.view fr.call.cid o.view }

theorem enter_cases {c : Call Cid} (h : enter g c = some (th', g')) :
    th' = .running c.entry c.frame ∧ ∃ fresh, g' = { g with fresh := fresh } := by
  unfold enter at h
  cases c with
  | fwLoad c load =>
    cases h
    exact ⟨rfl, _, rfl⟩
  | fwCleanup c =>
    cases h
    exact ⟨rfl, _, rfl⟩
  | fwInitialize c node dev =>
    simp only at h
    split at h
    · cases h
      exact ⟨rfl, _, rfl⟩
    · cases h

/-- A call that has not returned executes its next statement. -/
theorem move_go {pc : Pc} {fr : Frame Cid} {e : External} (hpc : pc ≠ .returned) :
    move ops t (.running pc fr) g (.go e) =
      ((localStep (ops fr.call.cid) e pc fr (g.view fr.call.cid)).lock.apply g.owner t).map
        fun owner => (.running (localStep (ops fr.call.cid) e pc fr (g.view fr.call.cid)).pc
          (localStep (ops fr.call.cid) e pc fr (g.view fr.call.cid)).frame,
          { g with
            owner := owner
            view := Function.update g.view fr.call.cid
              (localStep (ops fr.call.cid) e pc fr (g.view fr.call.cid)).view }) := by
  cases pc <;> first | exact absurd rfl hpc | rfl

/-- **Inversion of `move`.** -/
theorem move_cases (h : move ops t th g i = some (th', g')) : Moved ops t th g i th' g' := by
  cases i with
  | call c =>
    cases th with
    | idle =>
      obtain ⟨rfl, fresh, rfl⟩ := enter_cases h
      exact .entered (Or.inl rfl)
    | running pc fr =>
      by_cases hpc : pc = .returned
      · subst hpc
        obtain ⟨rfl, fresh, rfl⟩ := enter_cases h
        exact .entered (Or.inr ⟨fr, rfl⟩)
      · cases pc <;> first | exact absurd rfl hpc | cases h
  | go e =>
    cases th with
    | idle => cases h
    | running pc fr =>
      by_cases hpc : pc = .returned
      · subst hpc
        cases h
      · rw [move_go hpc] at h
        obtain ⟨owner, howner, heq⟩ := Option.map_eq_some_iff.mp h
        cases heq
        exact .stepped rfl hpc rfl howner

end Move

end Threads

end LinuxDeviceDriver.Memloader
