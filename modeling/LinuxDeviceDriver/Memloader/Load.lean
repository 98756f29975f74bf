import LinuxDeviceDriver.Lib.Loop
import LinuxDeviceDriver.Memloader.Context

/-!
# `fw_load_device_firmware`

One load call, from the state check to the final switch, for arbitrary driver
callbacks. The callbacks see the context read-only and share a world `σ` (the
driver's private data, the hardware); a callback that never returns gives `none`.

Other threads are let in between two blocks: `env` says what they do to the
context and the world each time the load loop passes its head. `noEnv` is the
load nobody interferes with.

`FwOps.logged` records what every callback call returned. The log is what the
caller of the function can know from outside, and the condition under which the
return value can be trusted is a condition on it (`fw_load_success_iff`).
-/

namespace LinuxDeviceDriver.Memloader

open Lib

universe u

variable {σ : Type u}

abbrev Callback (σ : Type u) := FwContext → σ → Option (Int × σ)

/-- The callbacks of `struct fw_context`; `none` is `NULL`. `endOp` is `end`, and
its flag is the `error` argument. -/
structure FwOps (σ : Type u) where
  start : Option (Callback σ)
  write : Option (Callback σ)
  read : Option (Callback σ)
  endOp : Option (FwContext → Bool → σ → Option (Int × σ))

/-- What other threads do at the `k`-th head of the load loop. -/
abbrev Env (σ : Type u) := Nat → FwContext × σ → FwContext × σ

def noEnv : Env σ := fun _ s => s

/-- The local variables of the function next to the context and the world;
`heads` counts the loop heads passed so far. -/
structure LoadState (σ : Type u) where
  ctx : FwContext
  world : σ
  ret : Int
  prevDelayCount : Int
  prevReadCount : Int
  currCount : Int
  heads : Nat

/-- Let the other threads run at a loop head. -/
def LoadState.interfere (env : Env σ) (s : LoadState σ) : LoadState σ :=
  { s with
    ctx := (env s.heads (s.ctx, s.world)).1
    world := (env s.heads (s.ctx, s.world)).2
    heads := s.heads + 1 }

/-- Bookkeeping after `ret > 0` bytes were written. -/
def LoadState.written (s : LoadState σ) (ret : Int) (w : σ) : LoadState σ :=
  { s with
    ctx := { s.ctx with currentCount := toInt32 (s.ctx.currentCount + ret) }
    world := w
    ret := ret
    currCount := toInt32 (s.currCount + ret) }

/-- It's time to do some reading. -/
def LoadState.readDue (s : LoadState σ) : Bool :=
  decide (s.ctx.blockread > 0) &&
    decide (toInt32 (s.currCount - s.prevReadCount) ≥ s.ctx.blockread)

/-- It's time to have a nap: only the position of the last nap is kept. -/
def LoadState.nap (s : LoadState σ) : LoadState σ :=
  if s.ctx.blocksize > 0 ∧ toInt32 (s.currCount - s.prevDelayCount) ≥ s.ctx.blocksize then
    { s with prevDelayCount := s.currCount }
  else s

/-- The loop body behind a successful write. -/
def afterWrite (ops : FwOps σ) (s : LoadState σ) : Iter (LoadState σ) :=
  match ops.read, s.readDue with
  | some read, true =>
    match read s.ctx s.world with
    | none => .stuck
    | some (ret, w) =>
      if ret < 0 then .done { s with ret := ret, world := w }
      else .next ({ s with ret := ret, world := w, prevReadCount := s.currCount }).nap
  | _, _ => .next s.nap

/-- One pass of the `for` loop: other threads, loop condition, one block. -/
def loadBody (ops : FwOps σ) (write : Callback σ) (env : Env σ) (s₀ : LoadState σ) :
    Iter (LoadState σ) :=
  let s := s₀.interfere env
  if s.ctx.currentCount < s.ctx.totalCount ∧ s.ctx.state = .loading then
    match write s.ctx s.world with
    | none => .stuck
    | some (ret, w) =>
      if ret ≤ 0 then .done { s with ret := ret, world := w }
      else afterWrite ops (s.written ret w)
  else .done s

/-- The context after the state check and a successful `request_firmware`. -/
def beginLoad (ctx : FwContext) (fw : Firmware) : FwContext :=
  { ctx with
    state := .loading
    currentCount := 0
    totalCount := toInt32 fw.size
    fw := some fw
    data := fw.data }

theorem beginLoad_totalCount (ctx : FwContext) (fw : Firmware) :
    (beginLoad ctx fw).totalCount = toInt32 fw.size := by
  rw [beginLoad]

/-- Call `start`, when there is one; `ret` is 0 from `request_firmware` before. -/
def runStart (ops : FwOps σ) (ctx : FwContext) (w : σ) : Option (LoadState σ) :=
  let s (ret : Int) (w : σ) : LoadState σ :=
    { ctx := ctx, world := w, ret := ret, prevDelayCount := 0, prevReadCount := 0,
      currCount := 0, heads := 0 }
  match ops.start with
  | none => some (s 0 w)
  | some start => (start ctx w).map fun r => s r.1 r.2

/-- The `for` initialiser. -/
def LoadState.loopEntry (s : LoadState σ) : LoadState σ :=
  { s with ctx := { s.ctx with currentCount := 0 } }

/-- Write all blocks, when there is a `write` and `start` did not fail. -/
def loadBlocks (ops : FwOps σ) (env : Env σ) (fuel : Nat) (s : LoadState σ) :
    Option (LoadState σ) :=
  match ops.write with
  | none => some s
  | some write =>
    if s.ret ≥ 0 then iterate (loadBody ops write env) fuel s.loopEntry else some s

def LoadState.setState (s : LoadState σ) (st : FwState) : LoadState σ :=
  { s with ctx := { s.ctx with state := st } }

/-- `if (ret < 0) ctx->state = FW_FAILED`. -/
def LoadState.markFailed (s : LoadState σ) : LoadState σ :=
  if s.ret < 0 then s.setState .failed else s

/-- Call `end`, when there is one: its result replaces `ret`. -/
def runEnd (ops : FwOps σ) (s : LoadState σ) : Option (LoadState σ) :=
  match ops.endOp with
  | none => some s
  | some endOp =>
    (endOp s.ctx (s.ctx.state != .loading) s.world).map fun r =>
      ({ s with ret := r.1, world := r.2 }).markFailed

/-- The final switch. -/
def finishLoad (s : LoadState σ) : Int × FwContext × σ :=
  match s.ctx.state with
  | .loading => (0, { s.ctx with state := .loaded }, s.world)
  | .empty | .deleted => (Errno.eio.neg, s.ctx, s.world)
  | .failed => (s.ret, s.ctx, s.world)
  | .loaded => (s.ret, { s.ctx with state := .empty }, s.world)

/-- Everything between a successful `request_firmware` and the return. -/
def loadImage (ops : FwOps σ) (env : Env σ) (fuel : Nat) (fw : Firmware) (ctx : FwContext)
    (w : σ) : Option (Int × FwContext × σ) := do
  let s ← runStart ops (beginLoad ctx fw) w
  let s ← loadBlocks ops env fuel s
  let s ← runEnd ops s.markFailed
  return finishLoad s

/-- `fw_load_device_firmware(ctx, 0)`: if the firmware is loading, it is cancelled
here. -/
def cancelLoad (ctx : FwContext) : FwContext :=
  { ctx with state := .empty }

/-- `fw_load_device_firmware(ctx, load)` by a caller that gets `serial_lock`. -/
def fwLoadDeviceFirmware (ops : FwOps σ) (env : Env σ) (fuel : Nat) (req : RequestResult)
    (ctx : FwContext) (w : σ) (load : Int) : Option (Int × FwContext × σ) :=
  if load = 0 then
    some (0, cancelLoad ctx, w)
  else
    match ctx.state with
    | .loading | .loaded | .deleted => some (Errno.einval.neg, ctx, w)
    | .empty | .failed =>
      match req with
      | .fail err _ =>
        some (err, { ctx with state := .failed, currentCount := 0, totalCount := 0 }, w)
      | .ok fw => loadImage ops env fuel fw ctx w

/-- A load from `FW_EMPTY` or `FW_FAILED` that gets its image… -/
theorem fwLoad_eq_loadImage (ops : FwOps σ) (env : Env σ) (fuel : Nat) (fw : Firmware)
    {ctx : FwContext} (hstate : ctx.state = .empty ∨ ctx.state = .failed) (w : σ) :
    fwLoadDeviceFirmware ops env fuel (.ok fw) ctx w 1 = loadImage ops env fuel fw ctx w := by
  rcases hstate with hs | hs <;> simp [fwLoadDeviceFirmware, hs]

/-- …and one that does not. -/
theorem fwLoad_request_failed (ops : FwOps σ) (env : Env σ) (fuel : Nat) {err : Int}
    (hneg : err < 0) {ctx : FwContext} (hstate : ctx.state = .empty ∨ ctx.state = .failed) (w : σ) :
    fwLoadDeviceFirmware ops env fuel (.fail err hneg) ctx w 1 =
      some (err, { ctx with state := .failed, currentCount := 0, totalCount := 0 }, w) := by
  rcases hstate with hs | hs <;> simp [fwLoadDeviceFirmware, hs]

/-! ## What one pass of the loop can do -/

/-- The outcomes of `afterWrite`. -/
inductive AfterWrite (ops : FwOps σ) (s : LoadState σ) : Iter (LoadState σ) → Prop
  | noRead : AfterWrite ops s (.next s.nap)
  | readCrash {read : Callback σ} : ops.read = some read → read s.ctx s.world = none →
      AfterWrite ops s .stuck
  | readFailed {read : Callback σ} {ret : Int} {w : σ} : ops.read = some read →
      read s.ctx s.world = some (ret, w) → ret < 0 →
      AfterWrite ops s (.done { s with ret := ret, world := w })
  | readDone {read : Callback σ} {ret : Int} {w : σ} : ops.read = some read →
      read s.ctx s.world = some (ret, w) → 0 ≤ ret →
      AfterWrite ops s
        (.next ({ s with ret := ret, world := w, prevReadCount := s.currCount }).nap)

theorem afterWrite_cases (ops : FwOps σ) (s : LoadState σ) :
    AfterWrite ops s (afterWrite ops s) := by
  unfold afterWrite
  split
  · next read hread hdue =>
    split
    · next hcall => exact .readCrash hread hcall
    · next ret w hcall =>
      split
      · next hneg => exact .readFailed hread hcall hneg
      · next hneg => exact .readDone hread hcall (Int.not_lt.mp hneg)
  · exact .noRead

/-- The loop condition. -/
def LoadState.Loading (s : LoadState σ) : Prop :=
  s.ctx.currentCount < s.ctx.totalCount ∧ s.ctx.state = .loading

/-- The outcomes of `loadBody` once the other threads have run. -/
inductive LoadBody (ops : FwOps σ) (write : Callback σ) (s : LoadState σ) :
    Iter (LoadState σ) → Prop
  | finished : ¬ s.Loading → LoadBody ops write s (.done s)
  | crash : s.Loading → write s.ctx s.world = none → LoadBody ops write s .stuck
  | stop {ret : Int} {w : σ} : s.Loading → write s.ctx s.world = some (ret, w) → ret ≤ 0 →
      LoadBody ops write s (.done { s with ret := ret, world := w })
  | wrote {ret : Int} {w : σ} {out : Iter (LoadState σ)} : s.Loading →
      write s.ctx s.world = some (ret, w) → 0 < ret → AfterWrite ops (s.written ret w) out →
      LoadBody ops write s out

theorem loadBody_cases (ops : FwOps σ) (write : Callback σ) (env : Env σ) (s : LoadState σ) :
    LoadBody ops write (s.interfere env) (loadBody ops write env s) := by
  unfold loadBody
  generalize s.interfere env = s₁
  simp only []
  split
  · next hcond =>
    split
    · next hcall => exact .crash hcond hcall
    · next ret w hcall =>
      split
      · next hle => exact .stop hcond hcall hle
      · next hle =>
        exact .wrote hcond hcall (Int.not_le.mp hle) (afterWrite_cases ops _)
  · next hcond => exact .finished hcond

theorem LoadState.nap_ret (s : LoadState σ) : s.nap.ret = s.ret := by
  unfold LoadState.nap
  split <;> rfl

theorem LoadState.nap_ctx (s : LoadState σ) : s.nap.ctx = s.ctx := by
  unfold LoadState.nap
  split <;> rfl

theorem LoadState.nap_world (s : LoadState σ) : s.nap.world = s.world := by
  unfold LoadState.nap
  split <;> rfl

theorem LoadState.nap_heads (s : LoadState σ) : s.nap.heads = s.heads := by
  unfold LoadState.nap
  split <;> rfl

/-- Every pass that comes back has counted its head. -/
theorem loadBody_heads {ops : FwOps σ} {write : Callback σ} {env : Env σ} {s s' : LoadState σ}
    (h : loadBody ops write env s = .next s') : s'.heads = s.heads + 1 := by
  have hcases := loadBody_cases ops write env s
  rw [h] at hcases
  cases hcases with
  | wrote _ _ _ hafter =>
    cases hafter with
    | noRead => exact LoadState.nap_heads _
    | readDone _ _ _ => exact LoadState.nap_heads _

/-! ## What a load call looks like from outside -/

/-- One callback call and what it returned. -/
inductive CbCall
  | start (ret : Int)
  | write (ret : Int)
  | read (ret : Int)
  | endCall (ret : Int)
deriving DecidableEq, Repr

/-- `start`, `write` or `read` reported an error. -/
def CbCall.failed : CbCall → Bool
  | start ret | write ret | read ret => decide (ret < 0)
  | endCall _ => false

/-- Append a callback's result to the log. -/
def logCall (mk : Int → CbCall) (log : List CbCall) (r : Int × σ) :
    Int × (σ × List CbCall) :=
  (r.1, (r.2, log ++ [mk r.1]))

/-- The same callbacks, with a log of what they returned. -/
def FwOps.logged (ops : FwOps σ) : FwOps (σ × List CbCall) where
  start := ops.start.map fun f ctx w => (f ctx w.1).map (logCall .start w.2)
  write := ops.write.map fun f ctx w => (f ctx w.1).map (logCall .write w.2)
  read := ops.read.map fun f ctx w => (f ctx w.1).map (logCall .read w.2)
  endOp := ops.endOp.map fun f ctx error w => (f ctx error w.1).map (logCall .endCall w.2)

/-! ### The log is an observer -/

/-- Forget the log. -/
def LoadState.erase (s : LoadState (σ × List CbCall)) : LoadState σ :=
  { ctx := s.ctx, world := s.world.1, ret := s.ret, prevDelayCount := s.prevDelayCount,
    prevReadCount := s.prevReadCount, currCount := s.currCount, heads := s.heads }

@[simp] theorem LoadState.erase_ctx (s : LoadState (σ × List CbCall)) :
    s.erase.ctx = s.ctx := rfl

@[simp] theorem LoadState.erase_world (s : LoadState (σ × List CbCall)) :
    s.erase.world = s.world.1 := rfl

@[simp] theorem LoadState.erase_ret (s : LoadState (σ × List CbCall)) :
    s.erase.ret = s.ret := rfl

theorem LoadState.erase_nap (s : LoadState (σ × List CbCall)) : s.nap.erase = s.erase.nap := by
  by_cases hnap : s.ctx.blocksize > 0 ∧
      toInt32 (s.currCount - s.prevDelayCount) ≥ s.ctx.blocksize
  · rw [LoadState.nap, if_pos hnap, LoadState.nap]
    exact (if_pos hnap).symm
  · rw [LoadState.nap, if_neg hnap, LoadState.nap]
    exact (if_neg hnap).symm

theorem LoadState.erase_markFailed (s : LoadState (σ × List CbCall)) :
    s.markFailed.erase = s.erase.markFailed := by
  by_cases hret : s.ret < 0
  · rw [LoadState.markFailed, if_pos hret, LoadState.markFailed]
    exact (if_pos hret).symm
  · rw [LoadState.markFailed, if_neg hret, LoadState.markFailed]
    exact (if_neg hret).symm

theorem afterWrite_erase (ops : FwOps σ) (s : LoadState (σ × List CbCall)) :
    (afterWrite ops.logged s).map LoadState.erase = afterWrite ops s.erase := by
  have hdue : s.erase.readDue = s.readDue := rfl
  unfold afterWrite
  rw [hdue]
  cases hread : ops.read with
  | none =>
    simp only [FwOps.logged, hread, Option.map_none, Iter.map]
    rw [LoadState.erase_nap]
  | some f =>
    simp only [FwOps.logged, hread, Option.map_some]
    cases s.readDue with
    | false =>
      simp only [Iter.map]
      rw [LoadState.erase_nap]
    | true =>
      simp only [LoadState.erase_ctx, LoadState.erase_world]
      cases f s.ctx s.world.1 with
      | none => rfl
      | some r =>
        obtain ⟨ret, w⟩ := r
        by_cases hneg : ret < 0
        · simp only [Option.map_some, logCall, hneg, if_true]
          rfl
        · simp only [Option.map_some, logCall, hneg, if_false, Iter.map]
          rw [LoadState.erase_nap]
          rfl

theorem loadBody_erase (ops : FwOps σ) (f : Callback σ) (s : LoadState (σ × List CbCall)) :
    (loadBody ops.logged (fun ctx w => (f ctx w.1).map (logCall .write w.2)) noEnv s).map
      LoadState.erase = loadBody ops f noEnv s.erase := by
  have hinter : s.erase.interfere noEnv = (s.interfere noEnv).erase := rfl
  unfold loadBody
  rw [hinter]
  generalize s.interfere noEnv = s₁
  by_cases hcond : s₁.ctx.currentCount < s₁.ctx.totalCount ∧ s₁.ctx.state = .loading
  · have hcond' : s₁.erase.ctx.currentCount < s₁.erase.ctx.totalCount ∧
        s₁.erase.ctx.state = .loading := hcond
    rw [if_pos hcond, if_pos hcond']
    simp only [LoadState.erase_ctx, LoadState.erase_world]
    cases f s₁.ctx s₁.world.1 with
    | none => rfl
    | some r =>
      obtain ⟨ret, w⟩ := r
      by_cases hle : ret ≤ 0
      · simp only [Option.map_some, logCall, hle, if_true]
        rfl
      · simp only [Option.map_some, logCall, hle, if_false]
        exact afterWrite_erase ops _
  · have hcond' : ¬ (s₁.erase.ctx.currentCount < s₁.erase.ctx.totalCount ∧
        s₁.erase.ctx.state = .loading) := hcond
    rw [if_neg hcond, if_neg hcond']
    rfl

theorem loadBlocks_erase (ops : FwOps σ) (fuel : Nat) (s : LoadState (σ × List CbCall)) :
    (loadBlocks ops.logged noEnv fuel s).map LoadState.erase =
      loadBlocks ops noEnv fuel s.erase := by
  unfold loadBlocks
  cases hwrite : ops.write with
  | none =>
    simp only [FwOps.logged, hwrite, Option.map_none]
    rfl
  | some f =>
    simp only [FwOps.logged, hwrite, Option.map_some]
    by_cases hret : s.ret ≥ 0
    · rw [if_pos hret, if_pos (show s.erase.ret ≥ 0 from hret)]
      exact iterate_map (loadBody_erase ops f) fuel s.loopEntry
    · rw [if_neg hret, if_neg (show ¬ s.erase.ret ≥ 0 from hret)]
      rfl

theorem runEnd_erase (ops : FwOps σ) (s : LoadState (σ × List CbCall)) :
    (runEnd ops.logged s).map LoadState.erase = runEnd ops s.erase := by
  unfold runEnd
  cases hend : ops.endOp with
  | none =>
    simp only [FwOps.logged, hend, Option.map_none]
    rfl
  | some f =>
    simp only [FwOps.logged, hend, Option.map_some, Option.map_map, LoadState.erase_ctx,
      LoadState.erase_world]
    congr 1
    funext r
    exact LoadState.erase_markFailed _

/-- Logging the callbacks does not change the load. -/
theorem loadImage_erase (ops : FwOps σ) (fuel : Nat) (fw : Firmware) (ctx : FwContext) (w : σ)
    (log : List CbCall) :
    (loadImage ops.logged noEnv fuel fw ctx (w, log)).map (fun r => (r.1, r.2.1, r.2.2.1)) =
      loadImage ops noEnv fuel fw ctx w := by
  have hstart : (runStart ops.logged (beginLoad ctx fw) (w, log)).map LoadState.erase =
      runStart ops (beginLoad ctx fw) w := by
    unfold runStart
    cases hs : ops.start with
    | none =>
      simp only [FwOps.logged, hs, Option.map_none]
      rfl
    | some f =>
      simp only [FwOps.logged, hs, Option.map_some, Option.map_map]
      rfl
  have hfinish : ∀ s : LoadState (σ × List CbCall),
      ((finishLoad s).1, (finishLoad s).2.1, (finishLoad s).2.2.1) = finishLoad s.erase := by
    intro s
    unfold finishLoad
    simp only [LoadState.erase_ctx, LoadState.erase_world, LoadState.erase_ret]
    cases s.ctx.state <;> rfl
  simp only [loadImage, bind, Option.bind, pure]
  rw [← hstart]
  cases runStart ops.logged (beginLoad ctx fw) (w, log) with
  | none => rfl
  | some s₁ =>
    simp only [Option.map_some]
    rw [← loadBlocks_erase]
    cases loadBlocks ops.logged noEnv fuel s₁ with
    | none => rfl
    | some s₂ =>
      simp only [Option.map_some]
      rw [← LoadState.erase_markFailed, ← runEnd_erase]
      cases runEnd ops.logged s₂.markFailed with
      | none => rfl
      | some s₃ => exact congrArg some (hfinish s₃)

/-! ### What the log says about `ret` -/

/-- A call of `start`, `write` or `read` failed, and `end` then reported success. -/
def FailureMasked (log : List CbCall) : Prop :=
  (∃ c ∈ log, c.failed = true) ∧ ∃ ret, CbCall.endCall ret ∈ log ∧ 0 ≤ ret

/-- Before `end` is called, `ret` is negative exactly when some callback failed. -/
structure LogOk (ret : Int) (log : List CbCall) : Prop where
  failed_iff : (∃ c ∈ log, c.failed = true) ↔ ret < 0
  no_end : ∀ r, CbCall.endCall r ∉ log

theorem LogOk.nil : LogOk 0 [] := by
  refine ⟨?_, ?_⟩
  · simp
  · intro r
    simp

/-- A further call decides `ret` afresh, as long as none failed before. -/
theorem LogOk.push {ret₀ ret : Int} {log : List CbCall} (h : LogOk ret₀ log) (h₀ : 0 ≤ ret₀)
    {c : CbCall} (hc : c.failed = decide (ret < 0)) (hend : ∀ r, c ≠ .endCall r) :
    LogOk ret (log ++ [c]) := by
  have hnone : ¬ ∃ c ∈ log, c.failed = true := by
    intro hex
    have := h.failed_iff.mp hex
    omega
  constructor
  · constructor
    · rintro ⟨c', hmem, hfail⟩
      rcases List.mem_append.mp hmem with hold | hnew
      · exact absurd ⟨c', hold, hfail⟩ hnone
      · rw [List.mem_singleton.mp hnew, hc] at hfail
        exact of_decide_eq_true hfail
    · intro hret
      refine ⟨c, by simp, ?_⟩
      rw [hc]
      exact decide_eq_true hret
  · intro r hmem
    rcases List.mem_append.mp hmem with hold | hnew
    · exact h.no_end r hold
    · exact hend r (List.mem_singleton.mp hnew).symm

/-- A load nobody interferes with, before `end`: the log tells `ret`, and the
state is still `FW_LOADING`. -/
structure Quiet (s : LoadState (σ × List CbCall)) : Prop where
  log : LogOk s.ret s.world.2
  state : s.ctx.state = .loading

theorem runStart_quiet {ops : FwOps σ} {ctx : FwContext} {w : σ}
    {s : LoadState (σ × List CbCall)} (hctx : ctx.state = .loading)
    (h : runStart ops.logged ctx (w, []) = some s) : Quiet s := by
  unfold runStart at h
  cases hstart : ops.start with
  | none =>
    simp only [FwOps.logged, hstart, Option.map_none, Option.some.injEq] at h
    subst h
    exact ⟨.nil, hctx⟩
  | some f =>
    simp only [FwOps.logged, hstart, Option.map_some, Option.map_map] at h
    obtain ⟨⟨ret, w'⟩, -, rfl⟩ := Option.map_eq_some_iff.mp h
    exact ⟨LogOk.nil.push (Int.le_refl 0) rfl (by simp), hctx⟩

/-- A logged call leaves its result at the end of the log. -/
theorem log_of_call {x : Option (Int × σ)} {mk : Int → CbCall} {log : List CbCall} {ret : Int}
    {w : σ × List CbCall} (h : x.map (logCall mk log) = some (ret, w)) :
    w.2 = log ++ [mk ret] := by
  obtain ⟨⟨ret', w'⟩, -, heq⟩ := Option.map_eq_some_iff.mp h
  obtain ⟨rfl, rfl⟩ := Prod.mk.inj heq
  rfl

theorem Quiet.nap {s : LoadState (σ × List CbCall)} (h : Quiet s) : Quiet s.nap := by
  refine ⟨?_, ?_⟩
  · rw [s.nap_ret, s.nap_world]
    exact h.log
  · rw [s.nap_ctx]
    exact h.state

/-- The part of the body behind a successful write keeps the load quiet, and comes
back to the loop head only with a non-negative `ret`. -/
theorem AfterWrite.quiet {ops : FwOps σ} {s s' : LoadState (σ × List CbCall)} (h : Quiet s)
    (hret : 0 ≤ s.ret) :
    (AfterWrite ops.logged s (.next s') → Quiet s' ∧ 0 ≤ s'.ret) ∧
    (AfterWrite ops.logged s (.done s') → Quiet s') := by
  have hlog : ∀ {read : Callback (σ × List CbCall)} {ret : Int} {w : σ × List CbCall},
      ops.logged.read = some read → read s.ctx s.world = some (ret, w) → LogOk ret w.2 := by
    intro read ret w hread hcall
    obtain ⟨f, -, rfl⟩ := Option.map_eq_some_iff.mp hread
    rw [log_of_call hcall]
    exact h.log.push hret rfl (by simp)
  constructor
  · intro hnext
    cases hnext with
    | noRead => exact ⟨h.nap, by rwa [s.nap_ret]⟩
    | readDone hread hcall hpos =>
      refine ⟨Quiet.nap ⟨hlog hread hcall, h.state⟩, ?_⟩
      rw [LoadState.nap_ret]
      exact hpos
  · intro hdone
    cases hdone with
    | readFailed hread hcall _ => exact ⟨hlog hread hcall, h.state⟩

/-- One pass of the loop keeps the load quiet. -/
theorem LoadBody.quiet {ops : FwOps σ} {write : Callback (σ × List CbCall)}
    (hwrite : ops.logged.write = some write) {s s' : LoadState (σ × List CbCall)}
    (h : Quiet s) (hret : 0 ≤ s.ret) :
    (LoadBody ops.logged write s (.next s') → Quiet s' ∧ 0 ≤ s'.ret) ∧
    (LoadBody ops.logged write s (.done s') → Quiet s') := by
  have hlog : ∀ {ret : Int} {w : σ × List CbCall},
      write s.ctx s.world = some (ret, w) → LogOk ret w.2 := by
    intro ret w hcall
    obtain ⟨f, -, rfl⟩ := Option.map_eq_some_iff.mp hwrite
    rw [log_of_call hcall]
    exact h.log.push hret rfl (by simp)
  have hwritten : ∀ {ret : Int} {w : σ × List CbCall},
      write s.ctx s.world = some (ret, w) → Quiet (s.written ret w) :=
    fun hcall => ⟨hlog hcall, h.state⟩
  constructor
  · intro hnext
    cases hnext with
    | wrote _ hcall hpos hafter =>
      exact (AfterWrite.quiet (hwritten hcall) (Int.le_of_lt hpos)).1 hafter
  · intro hdone
    cases hdone with
    | finished _ => exact h
    | stop _ hcall _ => exact ⟨hlog hcall, h.state⟩
    | wrote _ hcall hpos hafter =>
      exact (AfterWrite.quiet (hwritten hcall) (Int.le_of_lt hpos)).2 hafter

theorem Quiet.interfere {s : LoadState (σ × List CbCall)} (h : Quiet s) :
    Quiet (s.interfere noEnv) := ⟨h.log, h.state⟩

theorem loadBlocks_quiet {ops : FwOps σ} {fuel : Nat} {s s' : LoadState (σ × List CbCall)}
    (h : Quiet s) (hrun : loadBlocks ops.logged noEnv fuel s = some s') : Quiet s' := by
  unfold loadBlocks at hrun
  split at hrun
  · cases hrun
    exact h
  · next write hwrite =>
    split at hrun
    · next hret =>
      refine iterate_done (I := fun s => Quiet s ∧ 0 ≤ s.ret) (Q := Quiet) ?_ ?_ ?_ hrun
      · rintro s s' ⟨hq, hr⟩ hbody
        have hcases := loadBody_cases ops.logged write noEnv s
        rw [hbody] at hcases
        exact (LoadBody.quiet hwrite hq.interfere hr).1 hcases
      · rintro s s' ⟨hq, hr⟩ hbody
        have hcases := loadBody_cases ops.logged write noEnv s
        rw [hbody] at hcases
        exact (LoadBody.quiet hwrite hq.interfere hr).2 hcases
      · exact ⟨⟨h.log, h.state⟩, hret⟩
    · cases hrun
      exact h

/-! ## The return value -/

/-- The return value can be trusted: 0 says loaded, and failed says negative. -/
def Faithful (ret : Int) (ctx : FwContext) : Prop :=
  (ret = 0 ↔ ctx.state = .loaded) ∧ (ctx.state = .failed → ret < 0)

/-- What `end` and the final switch make of a quiet load. -/
theorem finish_faithful_iff {ops : FwOps σ} {s s' : LoadState (σ × List CbCall)} (h : Quiet s)
    (hend : runEnd ops.logged s.markFailed = some s') :
    Faithful (finishLoad s').1 (finishLoad s').2.1 ↔
      ¬ FailureMasked (finishLoad s').2.2.2 := by
  have hstate := h.state
  unfold runEnd at hend
  split at hend
  · -- no `end`: `ret` still is what the callbacks said
    cases hend
    have hunmasked : ¬ FailureMasked s.world.2 := by
      rintro ⟨-, ret, hmem, -⟩
      exact h.log.no_end ret hmem
    by_cases hret : s.ret < 0
    · simp [LoadState.markFailed, hret, LoadState.setState, finishLoad, Faithful, hunmasked]
      omega
    · simp [LoadState.markFailed, hret, finishLoad, hstate, Faithful, hunmasked]
  · next endOp hop =>
    obtain ⟨f, -, rfl⟩ := Option.map_eq_some_iff.mp hop
    obtain ⟨⟨ret, w⟩, hcall, rfl⟩ := Option.map_eq_some_iff.mp hend
    have hlog : w.2 = s.world.2 ++ [.endCall ret] := by
      have hw := log_of_call hcall
      unfold LoadState.markFailed at hw
      split at hw <;> exact hw
    have hmasked : FailureMasked w.2 ↔ s.ret < 0 ∧ 0 ≤ ret := by
      rw [hlog]
      constructor
      · rintro ⟨⟨c, hc, hfail⟩, r, hr, hpos⟩
        refine ⟨?_, ?_⟩
        · refine h.log.failed_iff.mp ⟨c, ?_, hfail⟩
          rcases List.mem_append.mp hc with hold | hnew
          · exact hold
          · rw [List.mem_singleton.mp hnew] at hfail
            cases hfail
        · rcases List.mem_append.mp hr with hold | hnew
          · exact absurd hold (h.log.no_end r)
          · cases List.mem_singleton.mp hnew
            exact hpos
      · rintro ⟨hneg, hpos⟩
        obtain ⟨c, hc, hfail⟩ := h.log.failed_iff.mpr hneg
        exact ⟨⟨c, List.mem_append.mpr (Or.inl hc), hfail⟩, ret, by simp, hpos⟩
    -- four cases: did a callback fail, does `end` report an error
    by_cases hret : s.ret < 0 <;> by_cases hend' : ret < 0
    all_goals
      simp only [LoadState.markFailed, hret, hend', if_true, if_false, LoadState.setState,
        finishLoad, hstate, Faithful, hmasked]
      simp
      try omega

/-! ## Termination -/

/-- The documented meaning of the callbacks: every call returns, and `write`
returns the number of bytes it wrote, hence no more than were left to write. -/
structure Documented (ops : FwOps σ) : Prop where
  start : ∀ f, ops.start = some f → ∀ ctx w, ∃ r, f ctx w = some r
  write : ∀ f, ops.write = some f → ∀ ctx w, ∃ ret w', f ctx w = some (ret, w') ∧
    (0 < ret → ret ≤ ctx.totalCount - ctx.currentCount)
  read : ∀ f, ops.read = some f → ∀ ctx w, ∃ r, f ctx w = some r
  endOp : ∀ f, ops.endOp = some f → ∀ ctx error w, ∃ r, f ctx error w = some r

/-- Logging does not change what the callbacks are. -/
theorem Documented.logged {ops : FwOps σ} (h : Documented ops) : Documented ops.logged where
  start := by
    intro f hf ctx w
    obtain ⟨f₀, hf₀, rfl⟩ := Option.map_eq_some_iff.mp hf
    obtain ⟨r, hr⟩ := h.start f₀ hf₀ ctx w.1
    exact ⟨logCall .start w.2 r, by simp [hr]⟩
  write := by
    intro f hf ctx w
    obtain ⟨f₀, hf₀, rfl⟩ := Option.map_eq_some_iff.mp hf
    obtain ⟨ret, w', hr, hle⟩ := h.write f₀ hf₀ ctx w.1
    exact ⟨ret, (w', w.2 ++ [.write ret]), by simp [hr, logCall], hle⟩
  read := by
    intro f hf ctx w
    obtain ⟨f₀, hf₀, rfl⟩ := Option.map_eq_some_iff.mp hf
    obtain ⟨r, hr⟩ := h.read f₀ hf₀ ctx w.1
    exact ⟨logCall .read w.2 r, by simp [hr]⟩
  endOp := by
    intro f hf ctx error w
    obtain ⟨f₀, hf₀, rfl⟩ := Option.map_eq_some_iff.mp hf
    obtain ⟨r, hr⟩ := h.endOp f₀ hf₀ ctx error w.1
    exact ⟨logCall .endCall w.2 r, by simp [hr]⟩

/-- The counters of a load, as `int`s that do not overflow. -/
structure CountsOk (ctx : FwContext) : Prop where
  nonneg : 0 ≤ ctx.currentCount
  total_lt : ctx.totalCount < 2 ^ 31

/-- A block of at most the remaining bytes moves the counter forward without
overflow. -/
theorem CountsOk.written {s : LoadState σ} (h : CountsOk s.ctx) {ret : Int} (w : σ)
    (hpos : 0 < ret) (hle : ret ≤ s.ctx.totalCount - s.ctx.currentCount) :
    (s.written ret w).ctx.currentCount = s.ctx.currentCount + ret := by
  have h₁ := h.nonneg
  have h₂ := h.total_lt
  exact toInt32_of_range (by omega) (by omega)

/-- Behind a write the body does not touch the context any more. -/
theorem AfterWrite.ctx_eq {ops : FwOps σ} {s s' : LoadState σ}
    (h : AfterWrite ops s (.next s')) : s'.ctx = s.ctx := by
  cases h with
  | noRead => exact s.nap_ctx
  | readDone => exact LoadState.nap_ctx _

/-- A load with documented callbacks that nobody interferes with ends, and
`total_count + 1` passes of the loop are enough. -/
theorem loadBlocks_returns {ops : FwOps σ} (hdoc : Documented ops) {s : LoadState σ}
    (htotal : s.ctx.totalCount < 2 ^ 31) {fuel : Nat} (hfuel : s.ctx.totalCount.toNat < fuel) :
    ∃ s', loadBlocks ops noEnv fuel s = some s' := by
  unfold loadBlocks
  split
  · exact ⟨s, rfl⟩
  · next write hwrite =>
    split
    · refine iterate_terminates (I := fun s => CountsOk s.ctx)
        (fun s => (s.ctx.totalCount - s.ctx.currentCount).toNat) ?_ ?_
        ⟨Int.le_refl 0, htotal⟩ ?_
      · intro s _ hbody
        have hcases := loadBody_cases ops write noEnv s
        rw [hbody] at hcases
        cases hcases with
        | crash _ hcall =>
          obtain ⟨ret, w, hret, -⟩ := hdoc.write write hwrite (s.interfere noEnv).ctx
            (s.interfere noEnv).world
          rw [hcall] at hret
          cases hret
        | wrote _ _ _ hafter =>
          cases hafter with
          | readCrash hread hcall =>
            obtain ⟨r, hr⟩ := hdoc.read _ hread _ _
            rw [hcall] at hr
            cases hr
      · intro s s' hcounts hbody
        have hcases := loadBody_cases ops write noEnv s
        rw [hbody] at hcases
        cases hcases with
        | @wrote ret w _ hcond hcall hpos hafter =>
          obtain ⟨ret', w', hret, hle⟩ := hdoc.write write hwrite (s.interfere noEnv).ctx
            (s.interfere noEnv).world
          rw [hcall] at hret
          cases hret
          have hnext := CountsOk.written (s := s.interfere noEnv) hcounts w hpos (hle hpos)
          have hlt : s.ctx.currentCount < s.ctx.totalCount := hcond.1
          have hnonneg := hcounts.nonneg
          have hsame : s'.ctx.totalCount = s.ctx.totalCount := by
            rw [hafter.ctx_eq]
            rfl
          have hcount : s'.ctx.currentCount = s.ctx.currentCount + ret := by
            rw [hafter.ctx_eq]
            exact hnext
          refine ⟨⟨?_, ?_⟩, ?_⟩
          · omega
          · rw [hsame]
            exact hcounts.total_lt
          · omega
      · show (s.ctx.totalCount - 0).toNat < fuel
        rwa [Int.sub_zero]
    · exact ⟨s, rfl⟩

theorem loadImage_returns {ops : FwOps σ} (hdoc : Documented ops) (fw : Firmware)
    (ctx : FwContext) (w : σ) {fuel : Nat} (hfuel : (toInt32 fw.size).toNat < fuel) :
    ∃ r, loadImage ops noEnv fuel fw ctx w = some r := by
  have hstart : ∃ s, runStart ops (beginLoad ctx fw) w = some s ∧
      s.ctx = beginLoad ctx fw := by
    unfold runStart
    split
    · exact ⟨_, rfl, rfl⟩
    · next f hf =>
      obtain ⟨r, hr⟩ := hdoc.start f hf (beginLoad ctx fw) w
      rw [hr]
      exact ⟨_, rfl, rfl⟩
  obtain ⟨s₁, h₁, hctx⟩ := hstart
  have htotal : s₁.ctx.totalCount = toInt32 fw.size := by rw [hctx, beginLoad_totalCount]
  obtain ⟨s₂, h₂⟩ := loadBlocks_returns hdoc (htotal ▸ toInt32_lt _) (htotal ▸ hfuel)
  have hend : ∃ s₃, runEnd ops s₂.markFailed = some s₃ := by
    unfold runEnd
    split
    · exact ⟨_, rfl⟩
    · next f hf =>
      obtain ⟨r, hr⟩ := hdoc.endOp f hf s₂.markFailed.ctx
        (s₂.markFailed.ctx.state != .loading) s₂.markFailed.world
      rw [hr]
      exact ⟨_, rfl⟩
  obtain ⟨s₃, h₃⟩ := hend
  exact ⟨finishLoad s₃, by simp [loadImage, h₁, h₂, h₃]⟩

/-- The steps of a load that returned. -/
theorem loadImage_eq_some {ops : FwOps σ} {env : Env σ} {fuel : Nat} {fw : Firmware}
    {ctx : FwContext} {w : σ} {r : Int × FwContext × σ}
    (h : loadImage ops env fuel fw ctx w = some r) :
    ∃ s₁ s₂ s₃, runStart ops (beginLoad ctx fw) w = some s₁ ∧
      loadBlocks ops env fuel s₁ = some s₂ ∧ runEnd ops s₂.markFailed = some s₃ ∧
      finishLoad s₃ = r := by
  unfold loadImage at h
  obtain ⟨s₁, h₁, h⟩ := Option.bind_eq_some_iff.mp h
  obtain ⟨s₂, h₂, h⟩ := Option.bind_eq_some_iff.mp h
  obtain ⟨s₃, h₃, h⟩ := Option.bind_eq_some_iff.mp h
  exact ⟨s₁, s₂, s₃, h₁, h₂, h₃, Option.some.inj h⟩

/-- **When the return value of a load can be trusted**: exactly when no failure of
`start`, `write` or `read` was followed by an `end` that reports success, because
`end` overwrites `ret`. With documented callbacks the load does return. -/
theorem fw_load_success_iff (ops : FwOps σ) (req : RequestResult) {ctx : FwContext}
    (hstate : ctx.state = .empty ∨ ctx.state = .failed) (w : σ) :
    (∀ (fuel : Nat) {ret : Int} {ctx' : FwContext} {w' : σ} {log : List CbCall},
      fwLoadDeviceFirmware ops.logged noEnv fuel req ctx (w, []) 1 =
        some (ret, ctx', (w', log)) →
      fwLoadDeviceFirmware ops noEnv fuel req ctx w 1 = some (ret, ctx', w') ∧
      ((ret = 0 ↔ ctx'.state = .loaded) ∧ (ctx'.state = .failed → ret < 0) ↔
        ¬ FailureMasked log)) ∧
    (Documented ops → ∃ fuel₀, ∀ fuel, fuel₀ ≤ fuel → ∃ r,
      fwLoadDeviceFirmware ops.logged noEnv fuel req ctx (w, []) 1 = some r) := by
  cases req with
  | fail err hneg =>
    constructor
    · intro fuel ret ctx' w' log h
      rw [fwLoad_request_failed _ _ _ _ hstate] at h
      cases h
      refine ⟨fwLoad_request_failed ops noEnv fuel hneg hstate w, ?_⟩
      have hne : err ≠ 0 := Int.ne_of_lt hneg
      simp [FailureMasked, hneg, hne]
    · intro _
      exact ⟨0, fun fuel _ => ⟨_, fwLoad_request_failed ops.logged noEnv fuel hneg hstate (w, [])⟩⟩
  | ok fw =>
    constructor
    · intro fuel ret ctx' w' log h
      rw [fwLoad_eq_loadImage _ _ _ _ hstate] at h
      refine ⟨?_, ?_⟩
      · rw [fwLoad_eq_loadImage _ _ _ _ hstate, ← loadImage_erase ops fuel fw ctx w [], h]
        rfl
      · obtain ⟨s₁, s₂, s₃, h₁, h₂, h₃, hfinish⟩ := loadImage_eq_some h
        have hquiet := loadBlocks_quiet (runStart_quiet rfl h₁) h₂
        have hiff := finish_faithful_iff hquiet h₃
        rw [hfinish] at hiff
        exact hiff
    · intro hdoc
      refine ⟨(toInt32 fw.size).toNat + 1, fun fuel hfuel => ?_⟩
      rw [fwLoad_eq_loadImage _ _ _ _ hstate]
      exact loadImage_returns hdoc.logged fw ctx (w, []) hfuel

/-- A driver whose hardware refuses every block; `end` returns what `f` makes of its
`error` argument. -/
def refusing (f : Bool → Int) : FwOps Unit where
  start := some fun _ w => some (0, w)
  write := some fun _ w => some (Errno.ebusy.neg, w)
  read := none
  endOp := some fun _ error w => some (f error, w)

/-- With an `end` that passes the error on, the failure is reported. -/
theorem fw_load_success_iff_end_notices :
    ∃ ctx', fwLoadDeviceFirmware
        (refusing fun error => if error then Errno.eio.neg else 0).logged
        noEnv 5 (.ok ⟨4, some fun _ => 255, none⟩) .zero ((), []) 1 =
          some (-5, ctx', ((), [.start 0, .write (-16), .endCall (-5)])) ∧
      (((-5 : Int) = 0 ↔ ctx'.state = .loaded) ∧ (ctx'.state = .failed → (-5 : Int) < 0)) := by
  refine ⟨_, rfl, ?_⟩
  have hload := fw_load_success_iff (refusing fun error => if error then Errno.eio.neg else 0)
    (.ok ⟨4, some fun _ => 255, none⟩) (Or.inl (rfl : FwContext.zero.state = .empty)) ()
  have hunmasked : ¬ FailureMasked [.start 0, .write (-16), .endCall (-5)] := by
    rintro ⟨-, ret, hmem, hpos⟩
    simp at hmem
    omega
  exact (hload.1 5 rfl).2.mpr hunmasked

/-- With an `end` that has nothing to complain about, the state is `FW_FAILED` and
the caller is told 0. -/
theorem fw_load_failure_reported_as_success :
    ∃ ctx', fwLoadDeviceFirmware (refusing fun _ => 0) noEnv 5
        (.ok ⟨4, some fun _ => 255, none⟩) .zero () 1 = some (0, ctx', ()) ∧
      ctx'.state = .failed :=
  ⟨_, rfl, rfl⟩

end LinuxDeviceDriver.Memloader
