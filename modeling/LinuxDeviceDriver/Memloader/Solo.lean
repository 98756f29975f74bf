import LinuxDeviceDriver.Memloader.Exclusion

/-!
# A load that runs alone

`fwLoadDeviceFirmware` computes a whole load; `Threads` executes it statement by
statement, with callbacks that may answer anything. Here the two are connected: a
thread that nobody interferes with, and whose callbacks answer as the driver's do,
returns what `fwLoadDeviceFirmware` returns and leaves the same context behind
(`solo_load`).

The proof follows the stages of the function (check, request, `start`, the loop,
`end`, the final switch). `Frame.load` and `LoadState.locals` are the two views of
the local variables that every stage keeps equal.
-/

namespace LinuxDeviceDriver.Memloader.Threads

open Lib

universe u

variable {σ : Type u} {Tid Cid : Type}

/-- Which callbacks a driver has. -/
def callbacksOf (ops : FwOps σ) : Callbacks where
  start := ops.start.isSome
  write := ops.write.isSome
  read := ops.read.isSome
  endOp := ops.endOp.isSome

/-- A call on its own: where it stands, its local variables and its context. -/
structure Config (Cid : Type) where
  pc : Pc
  frame : Frame Cid
  view : View

/-- The next statement of a call that has not returned. -/
def soloStep (cb : Callbacks) (c : Config Cid) (e : External) : Option (Config Cid) :=
  if c.pc = .returned then none
  else
    let o := localStep cb e c.pc c.frame c.view
    some ⟨o.pc, o.frame, o.view⟩

/-- The call runs from one configuration to another. -/
abbrev Runs (cb : Callbacks) : Config Cid → Config Cid → Prop := Reach (soloStep cb) anyStep

section Runs

variable {cb : Callbacks} {c : Config Cid} {pc pc' : Pc} {fr fr' : Frame Cid} {v v' : View}

/-- One more statement. -/
theorem Runs.next (h : Runs cb c ⟨pc, fr, v⟩) (e : External) (lock : LockOp)
    (hpc : pc ≠ .returned) (ho : localStep cb e pc fr v = ⟨pc', fr', v', lock⟩) :
    Runs cb c ⟨pc', fr', v'⟩ := by
  refine h.tail (a := e) trivial ?_
  simp only [soloStep, if_neg hpc, ho]

/-- One more statement of the load loop. -/
theorem Runs.loop (h : Runs cb c ⟨pc, fr, v⟩) (e : External)
    (hpc : pc = .start ∨ pc = .loopHead ∨ pc = .write ∨ pc = .read)
    (ho : loopStep cb e pc fr v = (pc', fr', v')) : Runs cb c ⟨pc', fr', v'⟩ := by
  refine h.next e .keep ?_ ?_
  · rcases hpc with rfl | rfl | rfl | rfl <;> simp
  · rcases hpc with rfl | rfl | rfl | rfl <;> simp only [localStep, ho]

end Runs

/-! ## Local variables -/

/-- The local variables of a sequential load, without the world. -/
def localsOf (l : LoadState σ) : LoadState Unit where
  ctx := l.ctx
  world := ()
  ret := l.ret
  prevDelayCount := l.prevDelayCount
  prevReadCount := l.prevReadCount
  currCount := l.currCount
  heads := 0

theorem localsOf_nap (l : LoadState σ) : (localsOf l).nap = localsOf l.nap := by
  by_cases hnap : l.ctx.blocksize > 0 ∧
      toInt32 (l.currCount - l.prevDelayCount) ≥ l.ctx.blocksize
  · rw [LoadState.nap, LoadState.nap, if_pos hnap]
    exact if_pos hnap
  · rw [LoadState.nap, LoadState.nap, if_neg hnap]
    exact if_neg hnap

/-- The call's local variables and context are those of the sequential load. -/
def Stands (fr : Frame Cid) (v : View) (l : LoadState σ) : Prop := fr.load v = localsOf l

section Stands

variable {fr : Frame Cid} {v : View} {l : LoadState σ}

theorem Stands.ctx (h : Stands fr v l) : v.ctx = l.ctx := congrArg LoadState.ctx h

theorem Stands.ret (h : Stands fr v l) : fr.ret = l.ret := congrArg LoadState.ret h

/-- Taking over the local variables of the sequential load. -/
theorem stands_ofLoad (fr : Frame Cid) (v : View) (l : LoadState σ) :
    Stands (fr.ofLoad (localsOf l)) { v with ctx := l.ctx } l := rfl

/-- The same when the context stays as it is. -/
theorem stands_ofLoad_same (h : Stands fr v l) (l' : LoadState σ) (hctx : l'.ctx = l.ctx) :
    Stands (fr.ofLoad (localsOf l')) v l' := by
  have hv : v = { v with ctx := l'.ctx } := by rw [hctx, ← h.ctx]
  rw [hv]
  exact stands_ofLoad fr _ l'

/-- A new return value. -/
theorem Stands.setRet (h : Stands fr v l) (ret : Int) (w : σ) :
    Stands { fr with ret := ret } v { l with ret := ret, world := w } := by
  have hload : fr.load v = localsOf l := h
  show { fr.load v with ret := ret } = { localsOf l with ret := ret }
  rw [hload]

/-- A store to `ctx->state`. -/
theorem Stands.store (h : Stands fr v l) (st : FwState) :
    Stands fr (v.store st) (l.setState st) := by
  have hload : fr.load v = localsOf l := h
  show (fr.load v).setState st = (localsOf l).setState st
  rw [hload]

end Stands

/-! ## The loop -/

section Loop

variable {ops : FwOps σ} {write : Callback σ} {fr : Frame Cid} {v : View} {l l' : LoadState σ}
  {c : Config Cid}

/-- The part of the loop body behind a successful write. -/
theorem solo_afterWrite (h : Stands fr v l) (hrun : Runs (callbacksOf ops) c ⟨.read, fr, v⟩) :
    (∀ l', afterWrite ops l = .done l' → ∃ fr' v', Stands fr' v' l' ∧
      Runs (callbacksOf ops) c ⟨behindLoop (callbacksOf ops) l'.ret, fr', v'⟩) ∧
    (∀ l', afterWrite ops l = .next l' → ∃ fr' v', Stands fr' v' l' ∧
      Runs (callbacksOf ops) c ⟨.loopHead, fr', v'⟩) := by
  have hload : fr.load v = localsOf l := h
  have hdue : (fr.load v).readDue = l.readDue := by
    rw [hload]
    rfl
  -- no read is due, or there is no `read` callback
  have hskip : ¬ ((callbacksOf ops).read = true ∧ (fr.load v).readDue = true) →
      ∃ fr' v', Stands fr' v' l.nap ∧ Runs (callbacksOf ops) c ⟨.loopHead, fr', v'⟩ := by
    intro hnot
    refine ⟨fr.ofLoad (localsOf l.nap), v, ?_, hrun.loop (answer 0) (by simp) ?_⟩
    · exact stands_ofLoad_same h l.nap l.nap_ctx
    · refine (if_neg hnot).trans ?_
      rw [hload, localsOf_nap]
  cases hread : ops.read with
  | none =>
    simp only [afterWrite, hread]
    refine ⟨fun _ h => (nomatch h), fun l' hnext => ?_⟩
    cases hnext
    exact hskip (by simp [callbacksOf, hread])
  | some read =>
    cases hd : l.readDue with
    | false =>
      simp only [afterWrite, hread, hd]
      refine ⟨fun _ h => (nomatch h), fun l' hnext => ?_⟩
      cases hnext
      exact hskip (by simp [hdue, hd])
    | true =>
      have hcond : (callbacksOf ops).read = true ∧ (fr.load v).readDue = true :=
        ⟨by simp [callbacksOf, hread], hdue.trans hd⟩
      simp only [afterWrite, hread, hd]
      split
      · exact ⟨fun _ h => (nomatch h), fun _ h => (nomatch h)⟩
      · next ret w hcall =>
        split
        · next hneg =>
          refine ⟨fun l' hdone => ?_, fun _ h => (nomatch h)⟩
          cases hdone
          refine ⟨_, _, h.setRet ret w, hrun.loop (answer ret) (by simp) ?_⟩
          exact (if_pos hcond).trans (if_pos hneg)
        · next hpos =>
          refine ⟨fun _ h => (nomatch h), fun l' hnext => ?_⟩
          cases hnext
          refine ⟨_, v, stands_ofLoad_same h _ (LoadState.nap_ctx _),
            hrun.loop (answer ret) (by simp) ?_⟩
          refine ((if_pos hcond).trans (if_neg hpos)).trans ?_
          rw [hload, ← localsOf_nap]
          rfl

/-- One pass of the loop. -/
theorem solo_loadBody (h : Stands fr v l)
    (hrun : Runs (callbacksOf ops) c ⟨.loopHead, fr, v⟩) :
    (∀ l', loadBody ops write noEnv l = .done l' → ∃ fr' v', Stands fr' v' l' ∧
      Runs (callbacksOf ops) c ⟨behindLoop (callbacksOf ops) l'.ret, fr', v'⟩) ∧
    (∀ l', loadBody ops write noEnv l = .next l' → ∃ fr' v', Stands fr' v' l' ∧
      Runs (callbacksOf ops) c ⟨.loopHead, fr', v'⟩) := by
  have h₁ : Stands fr v (l.interfere noEnv) := h
  unfold loadBody
  generalize l.interfere noEnv = l₁ at h₁
  simp only []
  by_cases hcond : l₁.ctx.currentCount < l₁.ctx.totalCount ∧ l₁.ctx.state = .loading
  · rw [if_pos hcond]
    have hhead : Runs (callbacksOf ops) c ⟨.write, fr, v⟩ := by
      refine hrun.loop (answer 0) (by simp) ?_
      rw [← h₁.ctx] at hcond
      exact if_pos hcond
    split
    · exact ⟨fun _ h => (nomatch h), fun _ h => (nomatch h)⟩
    · next ret w hcall =>
      split
      · next hle =>
        refine ⟨fun l' hdone => ?_, fun _ h => (nomatch h)⟩
        cases hdone
        refine ⟨_, _, h₁.setRet ret w, hhead.loop (answer ret) (by simp) ?_⟩
        exact if_pos hle
      · next hpos =>
        refine solo_afterWrite (stands_ofLoad fr v (l₁.written ret w))
          (hhead.loop (answer ret) (by simp) ?_)
        have hload : fr.load v = localsOf l₁ := h₁
        refine (if_neg hpos).trans ?_
        rw [hload]
        rfl
  · rw [if_neg hcond]
    refine ⟨fun l' hdone => ?_, fun _ h => (nomatch h)⟩
    cases hdone
    refine ⟨fr, v, h₁, hrun.loop (answer 0) (by simp) ?_⟩
    rw [← h₁.ctx] at hcond
    rw [← h₁.ret]
    exact if_neg hcond

/-- The whole loop. -/
theorem solo_loop :
    ∀ {fuel : Nat} {fr : Frame Cid} {v : View} {l l' : LoadState σ}, Stands fr v l →
      Runs (callbacksOf ops) c ⟨.loopHead, fr, v⟩ →
      iterate (loadBody ops write noEnv) fuel l = some l' →
      ∃ fr' v', Stands fr' v' l' ∧
        Runs (callbacksOf ops) c ⟨behindLoop (callbacksOf ops) l'.ret, fr', v'⟩
  | 0, _, _, _, _, _, _, hiter => nomatch hiter
  | fuel + 1, fr, v, l, l', h, hrun, hiter => by
    obtain ⟨hdone, hnext⟩ := solo_loadBody h hrun
    cases hbody : loadBody ops write noEnv l with
    | done l₁ =>
      rw [iterate_of_done hbody] at hiter
      cases hiter
      exact hdone _ hbody
    | next l₁ =>
      rw [iterate_of_next hbody] at hiter
      obtain ⟨fr₁, v₁, h₁, hrun₁⟩ := hnext _ hbody
      exact solo_loop h₁ hrun₁ hiter
    | stuck =>
      rw [iterate, hbody] at hiter
      cases hiter

end Loop

/-! ## The stages of a load -/

section Stages

variable {ops : FwOps σ} {fr : Frame Cid} {v : View} {l l' : LoadState σ} {c : Config Cid}

/-- `start` answers, or the 0 of `request_firmware` stands. -/
theorem runStart_answer {ctx : FwContext} {w : σ}
    (h : Stands fr v (⟨ctx, w, 0, 0, 0, 0, 0⟩ : LoadState σ))
    (hstart : runStart ops ctx w = some l) :
    ∃ e : External, (if (callbacksOf ops).start then e.ret else fr.ret) = l.ret ∧
      Stands { fr with ret := l.ret } v l := by
  unfold runStart at hstart
  cases hs : ops.start with
  | none =>
    simp only [hs] at hstart
    cases hstart
    have hnone : ¬ (callbacksOf ops).start = true := by simp [callbacksOf, hs]
    exact ⟨answer 0, by rw [if_neg hnone]; exact h.ret, h.setRet 0 w⟩
  | some start =>
    simp only [hs] at hstart
    obtain ⟨⟨ret, w'⟩, -, rfl⟩ := Option.map_eq_some_iff.mp hstart
    have hsome : (callbacksOf ops).start = true := by simp [callbacksOf, hs]
    exact ⟨answer ret, by rw [if_pos hsome]; rfl, h.setRet ret w'⟩

/-- `start` and the loop. -/
theorem solo_blocks {ctx : FwContext} {w : σ} {fuel : Nat}
    (hrun : Runs (callbacksOf ops) c ⟨.start, fr, v⟩) (hstart : runStart ops ctx w = some l)
    (h : Stands fr v (⟨ctx, w, 0, 0, 0, 0, 0⟩ : LoadState σ))
    (hblocks : loadBlocks ops noEnv fuel l = some l') :
    ∃ fr' v', Stands fr' v' l' ∧
      Runs (callbacksOf ops) c ⟨behindLoop (callbacksOf ops) l'.ret, fr', v'⟩ := by
  obtain ⟨e, he, hl⟩ := runStart_answer h hstart
  have hskip : ¬ ((callbacksOf ops).write = true ∧ l.ret ≥ 0) →
      Runs (callbacksOf ops) c
        ⟨behindLoop (callbacksOf ops) l.ret, { fr with ret := l.ret }, v⟩ := by
    intro hnot
    refine hrun.loop e (by simp) ?_
    simp only [loopStep, he]
    exact if_neg hnot
  unfold loadBlocks at hblocks
  cases hw : ops.write with
  | none =>
    simp only [hw] at hblocks
    cases hblocks
    exact ⟨_, v, hl, hskip (by simp [callbacksOf, hw])⟩
  | some write =>
    simp only [hw] at hblocks
    split at hblocks
    · next hret =>
      have henter : Runs (callbacksOf ops) c
          ⟨.loopHead, { fr with ret := l.ret }, { v with ctx := l.loopEntry.ctx }⟩ := by
        refine hrun.loop e (by simp) ?_
        simp only [loopStep, he]
        have hctx : (fr.load v).loopEntry.ctx = l.loopEntry.ctx := by
          show { v.ctx with currentCount := 0 } = { l.ctx with currentCount := 0 }
          rw [hl.ctx]
        rw [← hctx]
        exact if_pos ⟨by simp [callbacksOf, hw], hret⟩
      have hentry :
          Stands { fr with ret := l.ret } { v with ctx := l.loopEntry.ctx } l.loopEntry := by
        have hload : Frame.load { fr with ret := l.ret } v = localsOf l := hl
        show { Frame.load { fr with ret := l.ret } v with ctx := l.loopEntry.ctx } =
          localsOf l.loopEntry
        rw [hload]
        rfl
      exact solo_loop hentry henter hblocks
    · next hret =>
      cases hblocks
      exact ⟨_, v, hl, hskip fun hboth => hret hboth.2⟩

/-- A failed load is marked, and `end` is called. -/
theorem solo_end (h : Stands fr v l)
    (hrun : Runs (callbacksOf ops) c ⟨behindLoop (callbacksOf ops) l.ret, fr, v⟩)
    (hend : runEnd ops l.markFailed = some l') :
    ∃ fr' v', Stands fr' v' l' ∧ Runs (callbacksOf ops) c ⟨.release, fr', v'⟩ := by
  have hmarked : ∃ v₁, Stands fr v₁ l.markFailed ∧ Runs (callbacksOf ops) c
      ⟨if (callbacksOf ops).endOp then .endCall else .release, fr, v₁⟩ := by
    unfold LoadState.markFailed
    split
    · next hneg =>
      refine ⟨v.store .failed, h.store .failed, ?_⟩
      have hpc : behindLoop (callbacksOf ops) l.ret = .storeFailed := if_pos hneg
      rw [hpc] at hrun
      exact hrun.next (answer 0) .keep (by simp) rfl
    · next hpos =>
      have hpc : behindLoop (callbacksOf ops) l.ret =
        if (callbacksOf ops).endOp then .endCall else .release := if_neg hpos
      rw [hpc] at hrun
      exact ⟨v, h, hrun⟩
  obtain ⟨v₁, h₁, hrun₁⟩ := hmarked
  generalize l.markFailed = l₁ at h₁ hend
  unfold runEnd at hend
  cases he : ops.endOp with
  | none =>
    simp only [he] at hend
    cases hend
    have hnone : ¬ (callbacksOf ops).endOp = true := by simp [callbacksOf, he]
    rw [if_neg hnone] at hrun₁
    exact ⟨fr, v₁, h₁, hrun₁⟩
  | some endOp =>
    simp only [he] at hend
    obtain ⟨⟨ret, w⟩, -, rfl⟩ := Option.map_eq_some_iff.mp hend
    have hsome : (callbacksOf ops).endOp = true := by simp [callbacksOf, he]
    rw [if_pos hsome] at hrun₁
    have hcall := hrun₁.next (answer ret) .keep (by simp) rfl
    -- the log entry is no part of the locals
    have h₂ : Stands { fr with ret := ret, log := fr.log ++ [.ended] } v₁
        { l₁ with ret := ret, world := w } := h₁.setRet ret w
    unfold LoadState.markFailed
    split
    · next hneg =>
      rw [show (answer ret).ret = ret from rfl, if_pos hneg] at hcall
      exact ⟨_, _, h₂.store .failed, hcall.next (answer 0) .keep (by simp) rfl⟩
    · next hpos =>
      rw [show (answer ret).ret = ret from rfl, if_neg hpos] at hcall
      exact ⟨_, v₁, h₂, hcall⟩

/-- The release, the final switch and the return. -/
theorem solo_finish (h : Stands fr v l) (hrun : Runs (callbacksOf ops) c ⟨.release, fr, v⟩) :
    ∃ fr' v', fr'.ret = (finishLoad l).1 ∧ v'.ctx = (finishLoad l).2.1 ∧
      Runs (callbacksOf ops) c ⟨.returned, fr', v'⟩ := by
  obtain ⟨fr₁, hret, hswitch⟩ : ∃ fr₁, fr₁.ret = fr.ret ∧
      Runs (callbacksOf ops) c ⟨.finalSwitch, fr₁, v⟩ :=
    ⟨_, rfl, hrun.next (answer 0) .keep (by simp) rfl⟩
  -- the unlock and the return come last in every case
  have hleave : ∀ {fr' v'}, Runs (callbacksOf ops) c ⟨.unlock, fr', v'⟩ →
      ∃ fr'' v'', fr''.ret = fr'.ret ∧ v''.ctx = v'.ctx ∧
        Runs (callbacksOf ops) c ⟨.returned, fr'', v''⟩ := by
    intro fr' v' hunlock
    have hreturned := hunlock.next (answer 0) .release (by simp) rfl
    refine ⟨_, _, ?_, ?_, hreturned⟩ <;> rfl
  unfold finishLoad
  rw [← h.ctx, ← h.ret, ← hret]
  cases hstate : v.ctx.state with
  | loading =>
    have hstore := hswitch.next (answer 0) .keep (by simp)
      (show _ = (⟨.storeLoaded, fr₁, v, .keep⟩ : Outcome Cid) by simp only [localStep, hstate])
    exact hleave (hstore.next (answer 0) .keep (by simp) rfl)
  | empty | deleted =>
    exact hleave (hswitch.next (answer 0) .keep (by simp)
      (show _ = (⟨.unlock, { fr₁ with ret := Errno.eio.neg }, v, .keep⟩ : Outcome Cid) by
        simp only [localStep, hstate]))
  | failed =>
    exact hleave (hswitch.next (answer 0) .keep (by simp)
      (show _ = (⟨.unlock, fr₁, v, .keep⟩ : Outcome Cid) by simp only [localStep, hstate]))
  | loaded =>
    have hstore := hswitch.next (answer 0) .keep (by simp)
      (show _ = (⟨.storeEmpty, fr₁, v, .keep⟩ : Outcome Cid) by simp only [localStep, hstate])
    exact hleave (hstore.next (answer 0) .keep (by simp) rfl)

/-- The state check turns the call away, or lets it pass. -/
theorem localStep_check (cb : Callbacks) (e : External) (fr : Frame Cid) (v : View) :
    ((v.ctx.state = .loading ∨ v.ctx.state = .loaded ∨ v.ctx.state = .deleted) →
      localStep cb e .check fr v =
        ⟨.rejectUnlock, { fr with ret := Errno.einval.neg }, v, .keep⟩) ∧
    ((v.ctx.state = .empty ∨ v.ctx.state = .failed) →
      localStep cb e .check fr v = ⟨.storeLoading, { fr with late := v.deleted }, v, .keep⟩) := by
  constructor
  · rintro (hs | hs | hs) <;> simp only [localStep, hs]
  · rintro (hs | hs) <;> simp only [localStep, hs]

end Stages

/-- **A call that runs alone** returns what the sequential load returns, and leaves the
same context. -/
theorem solo_runs (ops : FwOps σ) (cid : Cid) {fuel : Nat} {req : RequestResult} {w w' : σ}
    {load ret : Int} {ctx' : FwContext} {v : View}
    (h : fwLoadDeviceFirmware ops noEnv fuel req v.ctx w load = some (ret, ctx', w')) :
    ∃ fr' v', fr'.ret = ret ∧ v'.ctx = ctx' ∧
      Runs (callbacksOf ops) ⟨(Call.fwLoad cid load).entry, (Call.fwLoad cid load).frame, v⟩
        ⟨.returned, fr', v'⟩ := by
  generalize hc : (⟨(Call.fwLoad cid load).entry, (Call.fwLoad cid load).frame, v⟩ :
    Config Cid) = c
  unfold fwLoadDeviceFirmware at h
  split at h
  · next hload =>
    cases h
    have hentry : Runs (callbacksOf ops) c ⟨.cancelStore, (Call.fwLoad cid load).frame, v⟩ := by
      rw [← hc, show (Call.fwLoad cid load).entry = .cancelStore from if_pos hload]
      exact .init
    exact ⟨_, _, rfl, rfl, hentry.next (answer 0) .keep (by simp) rfl⟩
  · next hload =>
    have hentry : Runs (callbacksOf ops) c ⟨.lock, (Call.fwLoad cid load).frame, v⟩ := by
      rw [← hc, show (Call.fwLoad cid load).entry = .lock from if_neg hload]
      exact .init
    have hcheck := hentry.next (answer 0) .acquire (by simp) rfl
    cases hstate : v.ctx.state with
    | loading | loaded | deleted =>
      simp only [hstate] at h
      cases h
      have hreject := hcheck.next (answer 0) .keep (by simp)
        ((localStep_check _ _ _ _).1 (by simp [hstate]))
      exact ⟨_, _, rfl, rfl, hreject.next (answer 0) .release (by simp) rfl⟩
    | empty | failed =>
      simp only [hstate] at h
      have hpass := hcheck.next (answer 0) .keep (by simp)
        ((localStep_check _ _ _ _).2 (by simp [hstate]))
      have hloading := hpass.next (answer 0) .keep (by simp) rfl
      cases req with
      | fail err neg =>
        cases h
        have hfailed := hloading.next ⟨0, .fail ret neg⟩ .keep (by simp) rfl
        have hunlock := hfailed.next (answer 0) .keep (by simp) rfl
        exact ⟨_, _, rfl, rfl, hunlock.next (answer 0) .release (by simp) rfl⟩
      | ok fw =>
        have hstart := hloading.next ⟨0, .ok fw⟩ .keep (by simp) rfl
        obtain ⟨l, hl, h⟩ := Option.bind_eq_some_iff.mp h
        obtain ⟨l₁, hl₁, h⟩ := Option.bind_eq_some_iff.mp h
        obtain ⟨l₂, hl₂, h⟩ := Option.bind_eq_some_iff.mp h
        have hfinish : finishLoad l₂ = (ret, ctx', w') := Option.some.inj h
        obtain ⟨fr₁, v₁, h₁, hrun₁⟩ := solo_blocks hstart hl rfl hl₁
        obtain ⟨fr₂, v₂, h₂, hrun₂⟩ := solo_end h₁ hrun₁ hl₂
        obtain ⟨fr₃, v₃, hret, hctx, hrun₃⟩ := solo_finish h₂ hrun₂
        rw [hfinish] at hret hctx
        exact ⟨fr₃, v₃, hret, hctx, hrun₃⟩

/-! ## In the pool -/

section Pool

variable [DecidableEq Tid] [DecidableEq Cid] {ops : Cid → Callbacks} {t : Tid}

/-- Thread `t` executes the call in the configuration `c`, and nobody else has the lock. -/
structure Executes (t : Tid) (c : Config Cid) (s : Sys Tid Cid) : Prop where
  thread : s.threads t = .running c.pc c.frame
  view : s.shared.view c.frame.call.cid = c.view
  owner : s.shared.owner = if c.pc.holds then some t else none

/-- The pool lets thread `t` alone make a move. -/
def stepOf (ops : Cid → Callbacks) (t : Tid) (s : Sys Tid Cid) (i : Input Cid) :
    Option (Sys Tid Cid) :=
  s.step (move ops) (t, i)

omit [DecidableEq Tid] in
/-- The lock does what the statement asks for, when nobody else has it. -/
theorem LockStep.apply {pc pc' : Pc} {lock : LockOp} (h : LockStep pc pc' lock) (t : Tid) :
    lock.apply (if pc.holds then some t else none) t =
      some (if pc'.holds then some t else none) := by
  cases h with
  | keep hsame =>
    rw [hsame]
    rfl
  | acquire hbefore hafter =>
    rw [hbefore, hafter]
    rfl
  | release _ hafter =>
    rw [hafter]
    rfl
  | init hpc hsame =>
    rw [hsame, hpc]
    rfl

/-- A statement of the call is a move of the pool. -/
theorem Executes.step {c c' : Config Cid} {s : Sys Tid Cid} {e : External} (h : Executes t c s)
    (hstep : soloStep (ops c.frame.call.cid) c e = some c') :
    c'.frame.call = c.frame.call ∧ ∃ s', stepOf ops t s (.go e) = some s' ∧ Executes t c' s' := by
  unfold soloStep at hstep
  split at hstep
  · cases hstep
  · next hpc =>
    cases hstep
    have hcall := localStep_call (ops c.frame.call.cid) e c.pc c.frame c.view
    have hlock := (localStep_lock (ops c.frame.call.cid) e c.pc c.frame c.view).apply t
    have hmove : move ops t (s.threads t) s.shared (.go e) = _ :=
      (congrArg (move ops t · s.shared (.go e)) h.thread).trans (move_go hpc)
    rw [h.view] at hmove
    generalize localStep (ops c.frame.call.cid) e c.pc c.frame c.view = o at hcall hlock hmove
    rw [h.owner, hlock] at hmove
    have hpool : stepOf ops t s (.go e) = some
        { threads := Function.update s.threads t (.running o.pc o.frame)
          shared := { s.shared with
            owner := if o.pc.holds then some t else none
            view := Function.update s.shared.view c.frame.call.cid o.view } } := by
      simp only [stepOf, Pool.step, hmove, Option.map_some]
    refine ⟨hcall, _, hpool, Function.update_self .., ?_, rfl⟩
    show Function.update s.shared.view c.frame.call.cid o.view o.frame.call.cid = o.view
    rw [hcall, Function.update_self]

/-- **A load that runs alone**: a thread outside of the driver, with the lock free, can
make a call whose return value and whose context are those of the sequential load. -/
theorem solo_load (drv : FwOps σ) {fuel : Nat} {req : RequestResult} {w w' : σ} {load ret : Int}
    {ctx' : FwContext} {cid : Cid} {s : Sys Tid Cid} (hops : ops cid = callbacksOf drv)
    (hidle : s.threads t = .idle) (hfree : s.shared.owner = none)
    (h : fwLoadDeviceFirmware drv noEnv fuel req (s.shared.view cid).ctx w load =
      some (ret, ctx', w')) :
    ∃ s' fr, Reach (stepOf ops t) anyStep s s' ∧ s'.threads t = .running .returned fr ∧
      fr.ret = ret ∧ (s'.shared.view cid).ctx = ctx' ∧ s'.shared.owner = none := by
  obtain ⟨fr, v, hret, hctx, hrun⟩ := solo_runs drv cid h
  -- the call arrives
  obtain ⟨s₁, hs₁, hexec⟩ : ∃ s₁, stepOf ops t s (.call (.fwLoad cid load)) = some s₁ ∧
      Executes t ⟨(Call.fwLoad cid load).entry, (Call.fwLoad cid load).frame,
        s.shared.view cid⟩ s₁ := by
    have hcall : stepOf ops t s (.call (.fwLoad cid load)) = some
        { threads := Function.update s.threads t
            (.running (Call.fwLoad cid load).entry (Call.fwLoad cid load).frame)
          shared := { s.shared with fresh := Function.update s.shared.fresh cid false } } := by
      simp only [stepOf, Pool.step, hidle]
      rfl
    refine ⟨_, hcall, Function.update_self .., rfl, ?_⟩
    rw [Call.entry_holds]
    exact hfree
  -- and is executed, statement by statement
  have hsim : ∃ s₂, Reach (stepOf ops t) anyStep s₁ s₂ ∧
      Executes t ⟨.returned, fr, v⟩ s₂ ∧ fr.call.cid = cid := by
    refine hrun.simulated (R := fun c s => Executes t c s ∧ c.frame.call.cid = cid)
      ⟨hexec, rfl⟩ ?_
    rintro c c' e s - ⟨hc, hcid⟩ - hstep
    right
    rw [← hops, ← hcid] at hstep
    obtain ⟨hcall, s', hs', hc'⟩ := hc.step hstep
    exact ⟨.go e, s', hs', hc', by rw [hcall, hcid]⟩
  obtain ⟨s₂, hs₂, hexec₂, hcid⟩ := hsim
  refine ⟨s₂, fr, (Reach.init.tail trivial hs₁).trans hs₂, hexec₂.thread, hret, ?_, hexec₂.owner⟩
  rw [← hcid, hexec₂.view]
  exact hctx

end Pool

end LinuxDeviceDriver.Memloader.Threads
