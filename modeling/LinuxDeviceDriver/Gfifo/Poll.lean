import LinuxDeviceDriver.Gfifo.WaitQueue

/-!
# `select` on a gfifo misses no event

`gfifo_poll` (gfifo_nonblock, gfifo_async, gfifo_platform, gfifo_misc, gfifo_misc_n) as
`select(2)` calls it: on the first pass it links the caller into both wait queues, on
every pass it reads the fill level under the mutex. If nothing the caller asked for is
ready, `select` sleeps until a wake-up of one of the queues has set its `triggered` mark,
clears the mark and calls `gfifo_poll` again.

Any number of such callers run here next to the readers, writers and `MEM_CLEAR` callers
of `WaitQueue`, whose system is one component (`base`); both take the same mutex. What
rules out a missed event is the order of the statements of `gfifo_poll`: the caller is on
the queues before it looks. `Since` says what a look is worth later on: a side that was
blocked then is still blocked, or its wake-up is due.
-/

namespace LinuxDeviceDriver.Gfifo.Poll

open Lib WaitQueue

/-- Where a `select` stands; the statement named is the next one it executes. `first` is the
pass with `_qproc` set, in which `poll_wait` links the caller. -/
inductive PollPc
  | idle
  -- gfifo_poll
  | lock (events : Nat) (first : Bool)
  | pollWaitReaders (events : Nat) (first : Bool)
  | pollWaitWriters (events : Nat) (first : Bool)
  | readMask (events : Nat)
  | unlock (events mask : Nat)
  -- select
  | checkMask (events mask : Nat)
  | sleep (events : Nat)
  | freeWait (mask : Nat)
  | returned (mask : Nat)

/-- The statements executed with the mutex held. -/
def PollPc.holds : PollPc → Bool
  | pollWaitReaders _ _ | pollWaitWriters _ _ | readMask _ | unlock _ _ => true
  | _ => false

/-- The wait queues the caller is linked into. -/
def PollPc.linked : PollPc → Side → Bool
  | lock _ first, _ | pollWaitReaders _ first, _ => !first
  | pollWaitWriters _ first, sd => !first || sd == .reader
  | readMask _, _ | unlock _ _, _ | checkMask _ _, _ | sleep _, _ | freeWait _, _ => true
  | idle, _ | returned _, _ => false

variable {Tid Pid : Type} [DecidableEq Tid] [DecidableEq Pid]

/-- The device with its tasks, and the callers of `select`. -/
structure PollSys (Tid Pid : Type) where
  base : Sys Tid
  inside : Option Pid
  pollers : Side → List Pid
  pc : Pid → PollPc
  triggered : Pid → Bool

def PollSys.fresh : PollSys Tid Pid where
  base := .fresh
  inside := none
  pollers := fun _ => []
  pc := fun _ => .idle
  triggered := fun _ => false

inductive PollAction (Tid Pid : Type)
  | task (a : Action Tid)
  | select (p : Pid) (events : Nat)
  | run (p : Pid)
  | giveUp (p : Pid)

/-- The task is about to take the mutex. -/
def takesMutex (s : Sys Tid) : Action Tid → Bool
  | .run t =>
    match s.pc t with
    | .lock _ | .relock _ | .clearLock => true
    | _ => false
  | _ => false

/-- A task moves; it waits while a poller is inside the mutex, and its wake-up also triggers
the pollers on the queue. -/
def taskStep (gfifoSize : Nat) (s : PollSys Tid Pid) (a : Action Tid) :
    Option (PollSys Tid Pid) :=
  if takesMutex s.base a && s.inside.isSome then none
  else (WaitQueue.step gfifoSize s.base a).map fun base =>
    { s with
      base := base
      triggered := fun p => s.triggered p ||
        match waking s.base a with
        | some sd => decide (p ∈ s.pollers sd)
        | none => false }

def PollSys.goto (s : PollSys Tid Pid) (p : Pid) (q : PollPc) : PollSys Tid Pid :=
  { s with pc := Function.update s.pc p q }

/-- `poll_wait`: does nothing once `_qproc` is NULL. -/
def PollSys.pollWait (s : PollSys Tid Pid) (p : Pid) (sd : Side) (first : Bool) :
    Side → List Pid :=
  if first then Function.update s.pollers sd (p :: s.pollers sd) else s.pollers

/-- The next statement of a `select`. -/
def runPoller (gfifoSize : Nat) (s : PollSys Tid Pid) (p : Pid) : Option (PollSys Tid Pid) :=
  match s.pc p with
  | .idle | .returned _ => none
  | .lock events first =>
    if s.base.mutex.isNone && s.inside.isNone then
      some { s.goto p (.pollWaitReaders events first) with inside := some p }
    else none
  | .pollWaitReaders events first =>
    some { s.goto p (.pollWaitWriters events first) with pollers := s.pollWait p .reader first }
  | .pollWaitWriters events first =>
    some { s.goto p (.readMask events) with pollers := s.pollWait p .writer first }
  | .readMask events => some (s.goto p (.unlock events (gfifoPoll gfifoSize s.base.dev)))
  | .unlock events mask => some { s.goto p (.checkMask events mask) with inside := none }
  | .checkMask events mask =>
    if mask &&& events ≠ 0 then some (s.goto p (.freeWait (mask &&& events)))
    else some (s.goto p (.sleep events))
  | .sleep events =>
    if s.triggered p then
      some { s.goto p (.lock events false) with
        triggered := Function.update s.triggered p false }
    else none
  | .freeWait mask =>
    some { s.goto p (.returned mask) with
      pollers := fun sd => (s.pollers sd).filter (· ≠ p) }

/-- One action of the system. A timeout or a signal ends the sleep of a `select`. -/
def pollStep (gfifoSize : Nat) (s : PollSys Tid Pid) : PollAction Tid Pid →
    Option (PollSys Tid Pid)
  | .task a => taskStep gfifoSize s a
  | .select p events =>
    match s.pc p with
    | .idle | .returned _ =>
      some { s.goto p (.lock events true) with
        triggered := Function.update s.triggered p false }
    | _ => none
  | .run p => runPoller gfifoSize s p
  | .giveUp p =>
    match s.pc p with
    | .sleep _ => some (s.goto p (.freeWait 0))
    | _ => none

/-! ## What a look at the fill level is worth -/

/-- A side that `dev` blocked is blocked, or about to be woken. -/
def Since (gfifoSize : Nat) (dev : GfifoDev) (s : Sys Tid) : Prop :=
  ∀ sd : Side, sd.blocked gfifoSize dev = true →
    sd.blocked gfifoSize s.dev = true ∨ WakePending s.pc sd

section Since

variable {gfifoSize : Nat} {dev : GfifoDev} {s s' : Sys Tid}

omit [DecidableEq Tid] in
theorem Since.now (gfifoSize : Nat) (s : Sys Tid) : Since gfifoSize s.dev s :=
  fun _ hblocked => .inl hblocked

/-- **Step lemma**: every action of a task that wakes no queue. -/
theorem Since.step (hinv : Inv gfifoSize s) (h : Since gfifoSize dev s) {a : Action Tid}
    (hstep : WaitQueue.step gfifoSize s a = some s') (hquiet : waking s a = none) :
    Since gfifoSize dev s' := by
  have hstep := step_quiet hstep hquiet
  intro sd hblocked
  rcases hstep.level with hlen | ⟨c, ret, hpc, hpc'⟩
  · rw [blocked_congr hlen]
    exact (h sd hblocked).imp_right (hstep.due sd)
  · -- the task has tested its own side, so only the other one can have been blocked
    have hfree := hinv.tested a.task
    rw [hpc] at hfree
    have hstill : sd.blocked gfifoSize s.dev = true :=
      (h sd hblocked).resolve_right (hinv.not_wakePending (by rw [hpc]; rfl) (by simp [hpc]) sd)
    rcases Side.eq_or_eq_other sd c.side with hsame | hother
    · rw [hsame, show c.side.blocked gfifoSize s.dev = false from hfree] at hstill
      cases hstill
    · exact .inr ⟨a.task, c, ret, hpc', hother.symm⟩

omit [DecidableEq Tid] in
/-- With the mutex free no wake-up is due, so what was not ready then is not ready now. -/
theorem Since.not_ready (hinv : Inv gfifoSize s) (h : Since gfifoSize dev s)
    (hfree : s.mutex = none) {events : Nat} (hnone : gfifoPoll gfifoSize dev &&& events = 0) :
    gfifoPoll gfifoSize s.dev &&& events = 0 := by
  have hblocked : ∀ sd : Side, sd.blocked gfifoSize dev = true →
      sd.blocked gfifoSize s.dev = true := by
    intro sd hsd
    refine (h sd hsd).resolve_right ?_
    rintro ⟨o, c, ret, hpc, -⟩
    have hout := hinv.mutex.outside hfree o
    rw [hpc] at hout
    cases hout
  have hempty : dev.curLen = 0 → s.dev.curLen = 0 := fun hlen =>
    beq_iff_eq.mp (hblocked .reader (beq_iff_eq.mpr hlen))
  have hfull : dev.curLen = gfifoSize → s.dev.curLen = gfifoSize := fun hlen =>
    beq_iff_eq.mp (hblocked .writer (beq_iff_eq.mpr hlen))
  unfold gfifoPoll at hnone ⊢
  rw [Nat.and_or_distrib_right, Nat.or_eq_zero_iff] at hnone ⊢
  constructor
  · split
    · next hsome =>
      rw [if_pos fun hlen => hsome (hempty hlen)] at hnone
      exact hnone.1
    · exact Nat.zero_and _
  · split
    · next hsome =>
      rw [if_pos fun hlen => hsome (hfull hlen)] at hnone
      exact hnone.2
    · exact Nat.zero_and _

end Since

/-! ## The invariant -/

/-- What a caller knows from its last look, as long as it has not been triggered. -/
def PollPc.Seen (gfifoSize : Nat) (s : Sys Tid) : PollPc → Prop
  | unlock _ mask | checkMask _ mask =>
    ∃ dev, mask = gfifoPoll gfifoSize dev ∧ Since gfifoSize dev s
  | sleep events => ∃ dev, gfifoPoll gfifoSize dev &&& events = 0 ∧ Since gfifoSize dev s
  | _ => True

structure PollInv (gfifoSize : Nat) (s : PollSys Tid Pid) : Prop where
  base : Inv gfifoSize s.base
  mutex : MutexInv PollPc.holds s.inside s.pc
  apart : s.inside.isSome = true → s.base.mutex = none
  linked : ∀ p sd, p ∈ s.pollers sd ↔ (s.pc p).linked sd = true
  seen : ∀ p, s.triggered p = false → (s.pc p).Seen gfifoSize s.base

omit [DecidableEq Tid] [DecidableEq Pid] in
theorem PollInv.fresh (gfifoSize : Nat) : PollInv gfifoSize (.fresh : PollSys Tid Pid) where
  base := Inv.fresh gfifoSize
  mutex := by
    intro p
    simp [PollSys.fresh, PollPc.holds]
  apart := nofun
  linked := by
    intro p sd
    simp [PollSys.fresh, PollPc.linked]
  seen := fun _ _ => trivial

section Step

variable {gfifoSize : Nat} {s s' : PollSys Tid Pid} {p : Pid}

/-! ### Tasks -/

omit [DecidableEq Tid] in
theorem PollPc.Seen.mono {b b' : Sys Tid} {q : PollPc} (h : q.Seen gfifoSize b)
    (hsince : ∀ dev, Since gfifoSize dev b → Since gfifoSize dev b') : q.Seen gfifoSize b' := by
  cases q with
  | unlock events mask | checkMask events mask =>
    obtain ⟨dev, hmask, hdev⟩ := h
    exact ⟨dev, hmask, hsince dev hdev⟩
  | sleep events =>
    obtain ⟨dev, hnone, hdev⟩ := h
    exact ⟨dev, hnone, hsince dev hdev⟩
  | _ => trivial

omit [DecidableEq Tid] in
/-- A caller that is not on a queue has not looked yet. -/
theorem PollPc.seen_of_unlinked {q : PollPc} {sd : Side} (h : ¬ q.linked sd = true)
    (b : Sys Tid) : q.Seen gfifoSize b := by
  cases q with
  | unlock | checkMask | sleep => exact absurd rfl h
  | _ => trivial

/-- Only a task that takes the mutex changes it from free to taken. -/
theorem step_mutex_none {b b' : Sys Tid} {a : Action Tid}
    (hstep : WaitQueue.step gfifoSize b a = some b') (htakes : takesMutex b a = false)
    (hfree : b.mutex = none) : b'.mutex = none := by
  cases a with
  | call t c | memClear t =>
    simp only [WaitQueue.step, Sys.enter] at hstep
    split at hstep <;> cases hstep <;> exact hfree
  | signal t =>
    cases hstep
    exact hfree
  | run t =>
    cases runTask_ran hstep with
    | lock hpc | relock hpc | clearLock hpc => simp [takesMutex, hpc] at htakes
    | unlockToSleep | out | clearUnlock => rfl
    | addWaitQueue | goAway | goToSleep | pass | setInterruptible | schedule => exact hfree
    | interrupted | woken | transferred | faulted | wakeUp | out2 => exact hfree
    | setRunning | clearMemset => exact hfree

theorem PollInv.task (h : PollInv gfifoSize s) {a : Action Tid}
    (hstep : taskStep gfifoSize s a = some s') : PollInv gfifoSize s' := by
  unfold taskStep at hstep
  split at hstep
  · cases hstep
  · next htakes =>
    obtain ⟨b, hb, rfl⟩ := Option.map_eq_some_iff.mp hstep
    refine ⟨step_inv h.base hb, h.mutex, fun hinside => ?_, h.linked, fun p hp => ?_⟩
    · have hstays : takesMutex s.base a = false :=
        Bool.eq_false_iff.mpr fun htake => htakes (by rw [htake, hinside]; rfl)
      exact step_mutex_none hb hstays (h.apart hinside)
    · obtain ⟨hp, hquiet⟩ := Bool.or_eq_false_iff.mp hp
      cases hwakes : waking s.base a with
      | none => exact (h.seen p hp).mono fun dev hdev => hdev.step h.base hb hwakes
      | some sd =>
        -- whoever has looked is on both queues, and has been triggered
        rw [hwakes] at hquiet
        have hnot := fun hlinked => of_decide_eq_false hquiet ((h.linked p sd).mpr hlinked)
        exact PollPc.seen_of_unlinked hnot b

/-! ### Callers of `select` -/

omit [DecidableEq Tid] in
/-- A statement of a `select`. -/
theorem PollInv.move (h : PollInv gfifoSize s) {q : PollPc} {inside : Option Pid}
    {pollers : Side → List Pid} {triggered : Pid → Bool}
    (hmutex : MutexInv PollPc.holds inside (Function.update s.pc p q))
    (hapart : inside.isSome = true → s.base.mutex = none)
    (hlinked : ∀ u sd, u ∈ pollers sd ↔ (Function.update s.pc p q u).linked sd = true)
    (htriggered : ∀ u, u ≠ p → triggered u = s.triggered u)
    (hseen : triggered p = false → q.Seen gfifoSize s.base) :
    PollInv gfifoSize { s.goto p q with
      inside := inside, pollers := pollers, triggered := triggered } where
  base := h.base
  mutex := hmutex
  apart := hapart
  linked := hlinked
  seen := by
    intro u hu
    show (Function.update s.pc p q u).Seen gfifoSize s.base
    by_cases hup : u = p
    · subst hup
      rw [Function.update_self]
      exact hseen hu
    · rw [Function.update_of_ne hup]
      exact h.seen u ((htriggered u hup).symm.trans hu)

omit [DecidableEq Tid] in
/-- The queues stay as they are. -/
theorem PollInv.linked_stay (h : PollInv gfifoSize s) {q : PollPc}
    (hq : q.linked = (s.pc p).linked) (u : Pid) (sd : Side) :
    u ∈ s.pollers sd ↔ (Function.update s.pc p q u).linked sd = true := by
  by_cases hup : u = p
  · subst hup
    rw [Function.update_self, hq]
    exact h.linked u sd
  · rw [Function.update_of_ne hup]
    exact h.linked u sd

omit [DecidableEq Tid] in
theorem PollInv.linked_pollWait (h : PollInv gfifoSize s) {q : PollPc} {sd : Side} {first : Bool}
    (hq : ∀ sd', q.linked sd' = ((first && sd' == sd) || (s.pc p).linked sd')) (u : Pid)
    (sd' : Side) :
    u ∈ s.pollWait p sd first sd' ↔ (Function.update s.pc p q u).linked sd' = true := by
  cases first with
  | false => exact h.linked_stay (funext fun sd' => by simp [hq]) u sd'
  | true =>
    show u ∈ Function.update s.pollers sd (p :: s.pollers sd) sd' ↔ _
    by_cases hup : u = p
    · subst hup
      rw [Function.update_self, hq]
      by_cases hsd : sd' = sd
      · subst hsd
        simp
      · rw [Function.update_of_ne hsd, h.linked u sd']
        simp [hsd]
    · rw [Function.update_of_ne hup, ← h.linked u sd']
      by_cases hsd : sd' = sd
      · subst hsd
        simp [hup]
      · rw [Function.update_of_ne hsd]

omit [DecidableEq Tid] in
theorem PollInv.linked_free (h : PollInv gfifoSize s) {q : PollPc}
    (hq : ∀ sd, q.linked sd = false) (u : Pid) (sd : Side) :
    u ∈ (s.pollers sd).filter (· ≠ p) ↔ (Function.update s.pc p q u).linked sd = true := by
  by_cases hup : u = p
  · subst hup
    simp [hq]
  · rw [Function.update_of_ne hup, ← h.linked u sd]
    simp [hup]

omit [DecidableEq Tid] in
/-- **Step lemma** for the statements of a `select`. -/
theorem runPoller_inv (h : PollInv gfifoSize s) (hstep : runPoller gfifoSize s p = some s') :
    PollInv gfifoSize s' := by
  have hinside : (s.pc p).holds = true → s.inside.isSome = true := fun hholds => by
    rw [(h.mutex p).mpr hholds]
    rfl
  unfold runPoller at hstep
  cases hpc : s.pc p with
  | idle => simp [hpc] at hstep
  | returned mask => simp [hpc] at hstep
  | lock events first =>
    simp only [hpc] at hstep
    split at hstep
    · next hfree =>
      obtain ⟨hbase, hnone⟩ := Bool.and_eq_true_iff.mp hfree
      cases hstep
      refine h.move (h.mutex.acquire (Option.isNone_iff_eq_none.mp hnone) rfl)
        (fun _ => Option.isNone_iff_eq_none.mp hbase) (h.linked_stay (by rw [hpc]; rfl))
        (fun _ _ => rfl) fun _ => trivial
    · cases hstep
  | pollWaitReaders events first =>
    simp only [hpc, Option.some.injEq] at hstep
    subst hstep
    refine h.move (h.mutex.stay (by rw [hpc]; rfl)) h.apart (h.linked_pollWait fun sd => ?_)
      (fun _ _ => rfl) fun _ => trivial
    rw [hpc]
    cases first <;> cases sd <;> rfl
  | pollWaitWriters events first =>
    simp only [hpc, Option.some.injEq] at hstep
    subst hstep
    refine h.move (h.mutex.stay (by rw [hpc]; rfl)) h.apart (h.linked_pollWait fun sd => ?_)
      (fun _ _ => rfl) fun _ => trivial
    rw [hpc]
    cases first <;> cases sd <;> rfl
  | readMask events =>
    simp only [hpc, Option.some.injEq] at hstep
    subst hstep
    exact h.move (h.mutex.stay (by rw [hpc]; rfl)) h.apart (h.linked_stay (by rw [hpc]; rfl))
      (fun _ _ => rfl) fun _ => ⟨s.base.dev, rfl, Since.now gfifoSize s.base⟩
  | unlock events mask =>
    simp only [hpc, Option.some.injEq] at hstep
    subst hstep
    refine h.move (h.mutex.release (by rw [hpc]; rfl) rfl) nofun (h.linked_stay (by rw [hpc]; rfl))
      (fun _ _ => rfl) fun hp => ?_
    have hseen := h.seen p hp
    rwa [hpc] at hseen
  | checkMask events mask =>
    simp only [hpc] at hstep
    split at hstep
    · cases hstep
      exact h.move (h.mutex.stay (by rw [hpc]; rfl)) h.apart (h.linked_stay (by rw [hpc]; rfl))
        (fun _ _ => rfl) fun _ => trivial
    · next hnone =>
      cases hstep
      refine h.move (h.mutex.stay (by rw [hpc]; rfl)) h.apart (h.linked_stay (by rw [hpc]; rfl))
        (fun _ _ => rfl) fun hp => ?_
      have hseen := h.seen p hp
      rw [hpc] at hseen
      obtain ⟨dev, rfl, hdev⟩ := hseen
      exact ⟨dev, not_not.mp hnone, hdev⟩
  | sleep events =>
    simp only [hpc] at hstep
    split at hstep
    · cases hstep
      exact h.move (h.mutex.stay (by rw [hpc]; rfl)) h.apart (h.linked_stay (by rw [hpc]; rfl))
        (fun u hup => Function.update_of_ne hup _ _) fun _ => trivial
    · cases hstep
  | freeWait mask =>
    simp only [hpc, Option.some.injEq] at hstep
    subst hstep
    exact h.move (h.mutex.stay (by rw [hpc]; rfl)) h.apart (h.linked_free fun _ => rfl)
      (fun _ _ => rfl) fun _ => trivial

theorem pollStep_inv (h : PollInv gfifoSize s) {a : PollAction Tid Pid}
    (hstep : pollStep gfifoSize s a = some s') : PollInv gfifoSize s' := by
  cases a with
  | task a => exact h.task hstep
  | run p => exact runPoller_inv h hstep
  | select p events =>
    simp only [pollStep] at hstep
    split at hstep
    case h_1 hpc | h_2 hpc =>
      cases hstep
      exact h.move (h.mutex.stay (by rw [hpc]; rfl)) h.apart (h.linked_stay (by rw [hpc]; rfl))
        (fun u hup => Function.update_of_ne hup _ _) fun _ => trivial
    case h_3 => cases hstep
  | giveUp p =>
    simp only [pollStep] at hstep
    split at hstep
    case h_1 hpc =>
      cases hstep
      exact h.move (h.mutex.stay (by rw [hpc]; rfl)) h.apart (h.linked_stay (by rw [hpc]; rfl))
        (fun _ _ => rfl) fun _ => trivial
    case h_2 => cases hstep

theorem reach_pollInv (h : Reach (pollStep gfifoSize) anyStep .fresh s) : PollInv gfifoSize s :=
  h.invariant (PollInv.fresh gfifoSize) fun hi _ hstep => pollStep_inv hi hstep

end Step

/-- **No missed event**: in every interleaving of readers, writers, `MEM_CLEAR` callers and
callers of `select`, whenever the mutex is free a `select` that sleeps untriggered asked for
nothing that is ready; while it is inside the mutex no task is; and once it has returned it is
on no wait queue. -/
theorem gfifo_poll_no_missed_event {gfifoSize : Nat} {s : PollSys Tid Pid}
    (h : Reach (pollStep gfifoSize) anyStep .fresh s) (p : Pid) :
    (s.base.mutex = none → ∀ events, s.pc p = .sleep events → s.triggered p = false →
      gfifoPoll gfifoSize s.base.dev &&& events = 0) ∧
    (s.inside = some p → ∀ t, (s.base.pc t).holds = false) ∧
    ∀ mask, s.pc p = .returned mask → ∀ sd, p ∉ s.pollers sd := by
  have hinv := reach_pollInv h
  refine ⟨fun hfree events hpc hp => ?_, fun hinside t => ?_, fun mask hpc sd hmem => ?_⟩
  · have hseen := hinv.seen p hp
    rw [hpc] at hseen
    obtain ⟨dev, hnone, hsince⟩ := hseen
    exact hsince.not_ready hinv.base hfree hnone
  · exact hinv.base.mutex.outside (hinv.apart (by rw [hinside]; rfl)) t
  · have hlinked := (hinv.linked p sd).mp hmem
    rw [hpc] at hlinked
    cases hlinked

/-- A `select` for `POLLIN` and its statements up to the sleep. -/
def selectFallsAsleep : List (PollAction Bool Unit) :=
  .select () pollIn :: List.replicate 6 (.run ())

/-- On an empty FIFO it is asleep there, untriggered. -/
theorem gfifo_poll_no_missed_event_empty :
    ∃ s, runFrom (pollStep 4) .fresh selectFallsAsleep = some s ∧ s.pc () = .sleep pollIn ∧
      s.triggered () = false ∧ gfifoPoll 4 s.base.dev &&& pollIn = 0 := by
  obtain ⟨s, hrun, hfree, hpc, hp⟩ :
      ∃ s, runFrom (pollStep 4) .fresh selectFallsAsleep = some s ∧ s.base.mutex = none ∧
        s.pc () = .sleep pollIn ∧ s.triggered () = false := ⟨_, rfl, rfl, rfl, rfl⟩
  exact ⟨s, hrun, hpc, hp, (gfifo_poll_no_missed_event (reach_runFrom hrun) ()).1 hfree _ hpc hp⟩

end LinuxDeviceDriver.Gfifo.Poll
