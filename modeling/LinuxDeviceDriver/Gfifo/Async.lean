import LinuxDeviceDriver.Gfifo.Settling

/-!
# `SIGIO` and the client that reads on it

gfifo_async with the program gfifo_signal: the driver sends `SIGIO` to the owner of the
file (`kill_fasync`) behind every successful read and write, the program reads once, with
`read(fd, buf, 99)`, each time the signal is delivered. Signals of one number do not queue
up, the handler runs with `SIGIO` blocked, and one read may leave bytes behind; so it is
not obvious that the program reads everything. It does, because its own read sends the
next `SIGIO`: the handler runs again until it finds the FIFO empty, and then it waits
inside `read`.

The other users of the device are the tasks of `WaitQueue`. The client `me` is one of the
tasks: its `read` is a call like the others, made by `deliver`. `kill_fasync` stands
between `wake_up_interruptible` and the unlock: a task that has it before it (`killDue`)
does not go on until it has executed it.
-/

namespace LinuxDeviceDriver.Gfifo.Async

open Lib WaitQueue

/-- `read(fd, &buf, MAX_LEN - 1)` into the handler's own array, on a file opened without
`O_NONBLOCK`. -/
def clientRead : Call := .read ⟨99, false, 99, by decide⟩

/-- The program waits in `sleep(30)`, or is inside `input_handler`. -/
inductive ClientPc
  | sleeping
  | handler
deriving DecidableEq

variable {Tid : Type} [DecidableEq Tid]

structure AsyncSys (Tid : Type) where
  base : Sys Tid
  killDue : Option Tid
  asyncQueue : Bool
  sigio : Bool
  client : ClientPc

/-- A fresh device, and the program behind `fcntl(fd, F_SETFL, o_flags|FASYNC)`. -/
def AsyncSys.started : AsyncSys Tid where
  base := .fresh
  killDue := none
  asyncQueue := true
  sigio := false
  client := .sleeping

/-- Calls and signals of the other tasks, and statements of all. -/
def foreign (me : Tid) : Action Tid → Bool
  | .call t _ | .memClear t | .signal t => t ≠ me
  | .run _ => true

/-- The call a task is in. -/
def callOf : Pc → Option Call
  | .lock c | .addWaitQueue c | .test c | .setInterruptible c | .unlockToSleep c | .schedule c
  | .signalPending c | .relock c | .transfer c | .wakeUp c _ | .out c _ | .out2 c _
  | .setRunning c _ => some c
  | .idle | .returned _ | .clearLock | .clearMemset | .clearUnlock => none

/-- The client's array takes all 99 bytes. -/
theorem clientRead_ok (gfifoSize : Nat) (dev : GfifoDev) (err : Errno) :
    (clientRead.body gfifoSize dev).1 ≠ .error err := by
  have hcount := clampCount_eq_min ⟨99, false, 99, by decide⟩ dev.curLen
  simp only [clientRead, Call.body, gfifoReadBody, gfifoReadBodyWith, hcount]
  have hall : (copyToUser dev.mem (min 99 dev.curLen) 99).2 = 0 := by
    simp only [copyToUser]
    omega
  rw [if_neg (not_not_intro hall)]
  intro hfailed
  cases hfailed

/-- The client is outside the driver or in its read, up to `wake_up_interruptible` or
behind it. -/
def Reading (p : Pc) : Prop := p.Outside ∨ callOf p = some clientRead

/-- Somebody has the signal of the client before it. -/
def SignalDue (s : AsyncSys Tid) : Prop :=
  s.killDue.isSome = true ∨ ∃ sd, WakePending s.base.pc sd

/-- The client will see what is in the FIFO: a signal is pending or due, or its read has not
taken anything yet. -/
def Attended (me : Tid) (s : AsyncSys Tid) : Prop :=
  s.sigio = true ∨ SignalDue s ∨ (s.client = .handler ∧ (s.base.pc me).mayWake = true)

structure AsyncInv (gfifoSize : Nat) (me : Tid) (s : AsyncSys Tid) : Prop where
  base : Inv gfifoSize s.base
  blocking : ∀ t, (s.base.pc t).Blocking
  queued : s.asyncQueue = true
  unsignalled : s.base.sigPending me = false
  reading : Reading (s.base.pc me)
  sleeping : s.client = .sleeping → (s.base.pc me).Outside
  handling : s.client = .handler → s.base.pc me ≠ .idle
  attended : s.base.dev.curLen ≠ 0 → Attended me s

section Step

variable {gfifoSize : Nat} {me : Tid} {s s' : AsyncSys Tid} {b b' : Sys Tid}

theorem Reading.call {p : Pc} {c : Call} (h : Reading p) (hp : callOf p = some c) :
    c = clientRead ∧ ¬ p.Outside := by
  have hout : ¬ p.Outside := by
    rintro (rfl | ⟨ret, rfl⟩) <;> cases hp
  exact ⟨Option.some.inj (hp.symm.trans (h.resolve_left hout)), hout⟩

/-- What a statement of the client's own read does to it. -/
structure ReadsOn (b b' : Sys Tid) (me : Tid) : Prop where
  inside : ¬ (b.pc me).Outside
  reading : Reading (b'.pc me)
  called : b'.pc me ≠ .idle
  mayWake : waking b (.run me) = none → (b.pc me).mayWake = true → (b'.pc me).mayWake = true

omit [DecidableEq Tid] in
theorem ReadsOn.move {p q : Pc} {c : Call} (h : Reading (b.pc me)) (hpc : b.pc me = p)
    (hpc' : b'.pc me = q) (hp : callOf p = some c) (hq : callOf q = some c)
    (hwake : waking b (.run me) = none → p.mayWake = true → q.mayWake = true) :
    ReadsOn b b' me := by
  subst hpc hpc'
  obtain ⟨rfl, hout⟩ := h.call hp
  refine ⟨hout, .inr hq, fun hidle => ?_, hwake⟩
  rw [hidle] at hq
  cases hq

/-- The client is not sent away, interrupted or faulted: it reads on. -/
theorem runTask_readsOn (h : Reading (b.pc me)) (hsignal : b.sigPending me = false)
    (hstep : runTask gfifoSize b me = some b') : ReadsOn b b' me := by
  have hacquire : ∀ {p}, b.acquire me p = some b' → b'.pc me = p := by
    intro p hp
    unfold Sys.acquire at hp
    split at hp
    · cases hp
      exact Function.update_self ..
    · cases hp
  have hcall : ∀ {p c}, b.pc me = p → callOf p = some c → c = clientRead := fun hpc hp =>
    (h.call (hpc ▸ hp)).1
  cases runTask_ran hstep with
  | lock hpc hlock | relock hpc hlock =>
    exact .move h hpc (hacquire hlock) rfl rfl fun _ _ => rfl
  | addWaitQueue hpc | goToSleep hpc | pass hpc | setInterruptible hpc | unlockToSleep hpc =>
    exact .move h hpc (Function.update_self ..) rfl rfl fun _ _ => rfl
  | schedule hpc | woken hpc | transferred hpc =>
    exact .move h hpc (Function.update_self ..) rfl rfl fun _ _ => rfl
  | goAway hpc _ hnonblock =>
    rw [hcall hpc rfl] at hnonblock
    cases hnonblock
  | interrupted hpc hpending =>
    rw [hsignal] at hpending
    cases hpending
  | faulted hpc herr =>
    rw [hcall hpc rfl] at herr
    exact absurd herr (clientRead_ok gfifoSize b.dev _)
  | wakeUp hpc =>
    exact .move h hpc (Function.update_self ..) rfl rfl fun hquiet => by
      simp [waking, hpc] at hquiet
  | out hpc | out2 hpc =>
    exact .move h hpc (Function.update_self ..) rfl rfl fun _ hdue => by cases hdue
  | @setRunning c ret hpc =>
    have hreturned : (Function.update b.pc me (.returned ret)) me = .returned ret :=
      Function.update_self ..
    refine ⟨hpc ▸ (h.call (c := c) (hpc ▸ rfl)).2, .inl (.inr ⟨ret, hreturned⟩), ?_, ?_⟩
    · exact fun hidle => by cases hreturned.symm.trans hidle
    · rw [hpc]
      intro _ hdue
      cases hdue
  | clearLock hpc | clearMemset hpc | clearUnlock hpc =>
    rw [hpc] at h
    rcases h with (hidle | ⟨ret, hret⟩) | hread
    · cases hidle
    · cases hret
    · cases hread

/-! ## The invariant -/

/-- Only the client's own signals set its mark. -/
theorem step_unsignalled {a : Action Tid} (hforeign : foreign me a = true)
    (hstep : WaitQueue.step gfifoSize b a = some b') (h : b.sigPending me = false) :
    b'.sigPending me = false := by
  cases a with
  | call t c | memClear t =>
    have hne : me ≠ t := fun heq => of_decide_eq_true hforeign heq.symm
    simp only [WaitQueue.step, Sys.enter] at hstep
    split at hstep <;> cases hstep <;> exact (Function.update_of_ne hne _ _).trans h
  | signal t =>
    have hne : me ≠ t := fun heq => of_decide_eq_true hforeign heq.symm
    cases hstep
    exact (Function.update_of_ne hne _ _).trans h
  | run t =>
    have hacquire : ∀ {p}, b.acquire t p = some b' → b'.sigPending me = false := by
      intro p hp
      unfold Sys.acquire at hp
      split at hp
      · cases hp
        exact h
      · cases hp
    cases runTask_ran hstep with
    | lock _ hlock | relock _ hlock | clearLock _ hlock => exact hacquire hlock
    | addWaitQueue | goAway | goToSleep | pass | setInterruptible | unlockToSleep => exact h
    | schedule | interrupted | woken | transferred | faulted | wakeUp | out => exact h
    | out2 | setRunning | clearMemset | clearUnlock => exact h

/-- A foreign action leaves the client where it is, or is a statement of its read. -/
theorem step_client (h : AsyncInv gfifoSize me s) {a : Action Tid} (hforeign : foreign me a = true)
    (hstep : WaitQueue.step gfifoSize s.base a = some b') :
    b'.pc me = s.base.pc me ∨ (a = .run me ∧ ReadsOn s.base b' me) := by
  by_cases hme : me = a.task
  · cases a with
    | run t =>
      subst hme
      exact .inr ⟨rfl, runTask_readsOn h.reading h.unsignalled hstep⟩
    | call t c | memClear t | signal t => exact absurd hme.symm (of_decide_eq_true hforeign)
  · exact .inl (step_others hstep hme)

/-- A transfer makes a signal due, and the wake-up hands it to `kill_fasync`. -/
theorem Attended.task (h : AsyncInv gfifoSize me s) {a : Action Tid}
    (hforeign : foreign me a = true) (hstep : WaitQueue.step gfifoSize s.base a = some b')
    (hlen : b'.dev.curLen ≠ 0) :
    Attended me { s with
      base := b', killDue := if (waking s.base a).isSome then some a.task else s.killDue } := by
  cases hquiet : waking s.base a with
  | some sd => exact .inr (.inl (.inl rfl))
  | none =>
    have hmoved := step_quiet hstep hquiet
    rcases hmoved.level with hsame | ⟨c, ret, -, hpc'⟩
    · rcases h.attended (hsame ▸ hlen) with hsigio | (hkill | ⟨sd, hdue⟩) | ⟨hhandler, hmay⟩
      · exact .inl hsigio
      · exact .inr (.inl (.inl hkill))
      · exact .inr (.inl (.inr ⟨sd, hmoved.due sd hdue⟩))
      · refine .inr (.inr ⟨hhandler, ?_⟩)
        rcases step_client h hforeign hstep with hstays | ⟨rfl, hreads⟩
        · exact hstays ▸ hmay
        · exact hreads.mayWake hquiet hmay
    · exact .inr (.inl (.inr ⟨_, a.task, c, ret, hpc', rfl⟩))

theorem AsyncInv.task (h : AsyncInv gfifoSize me s) {a : Action Tid}
    (hforeign : foreign me a = true) (hstep : WaitQueue.step gfifoSize s.base a = some b') :
    AsyncInv gfifoSize me { s with
      base := b', killDue := if (waking s.base a).isSome then some a.task else s.killDue } where
  base := step_inv h.base hstep
  blocking := step_blocking h.blocking hstep
  queued := h.queued
  unsignalled := step_unsignalled hforeign hstep h.unsignalled
  reading := by
    rcases step_client h hforeign hstep with hstays | ⟨-, hreads⟩
    · exact hstays ▸ h.reading
    · exact hreads.reading
  sleeping := by
    intro hsleeping
    rcases step_client h hforeign hstep with hstays | ⟨-, hreads⟩
    · exact hstays ▸ h.sleeping hsleeping
    · exact absurd (h.sleeping hsleeping) hreads.inside
  handling := by
    intro hhandler
    rcases step_client h hforeign hstep with hstays | ⟨-, hreads⟩
    · exact hstays ▸ h.handling hhandler
    · exact hreads.called
  attended := Attended.task h hforeign hstep

end Step

omit [DecidableEq Tid] in
theorem AsyncInv.started (gfifoSize : Nat) (me : Tid) :
    AsyncInv gfifoSize me AsyncSys.started where
  base := Inv.fresh gfifoSize
  blocking := fun _ => trivial
  queued := rfl
  unsignalled := rfl
  reading := .inl (.inl rfl)
  sleeping := fun _ => .inl rfl
  handling := nofun
  attended := fun hlen => absurd rfl hlen

end LinuxDeviceDriver.Gfifo.Async
