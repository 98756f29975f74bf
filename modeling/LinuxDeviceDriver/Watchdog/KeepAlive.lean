import LinuxDeviceDriver.Watchdog.Resources
import LinuxDeviceDriver.Watchdog.System

/-!
# The kicks come in time

What the driver is for: once started, it kicks the hardware before that loses its patience. This
adds a clock to the system of `Watchdog.System`. `mod_timer` sets an expiry, the timer does not
fire before it, and the clock stops (`OnTime`) rather than to let the kernel be late: the handler
has returned `L` jiffies after the expiry, and queued work is done after `W`.

From a start command on that finds no handler executing and no work to do, and as long as nobody
stops or removes the driver, the last kick or start command is never longer ago than
`I + 2 * L + W`, where `I` bounds the kick interval. The `2` is no slack: the handler kicks first
and sets the timer last, so the time it takes counts twice. An enable command must not undo the
start: what it writes back of `timer_running` is what is there (`Pc.Whole`).

A start command does not kick. It only moves the expiry, so that commands which come faster than the
interval keep the watchdog from being kicked at all (`starves`).
-/

namespace LinuxDeviceDriver.Watchdog

open Lib Generic

/-! ## The clock -/

/-- Times are in jiffies. -/
structure Clock where
  now : Nat
  /-- `msecs_to_jiffies(kick_interval)`, which may be changed at any time. -/
  interval : Nat
  /-- `priv.timer.expires` -/
  expires : Nat
  /-- The expiry that has brought up the handler. -/
  due : Nat
  /-- When the work was queued that waits, and the work that is being done. -/
  queuedAt : Nat
  takenAt : Nat
  /-- Ghosts: the time of the last kick or start command, and the number of kicks. -/
  fresh : Nat
  kicks : Nat

/-- What a step means to the clock. -/
inductive Effect
  | start
  | rearm
  | fire
  | kick
  | queue
  | take
  | other
deriving DecidableEq, Repr

structure Timed (T σ : Type) where
  sys : Pool T Pc (Shared T σ)
  clock : Clock

/-- The steps of the system, a new value of the module parameter, and time. -/
inductive TimedEvent (T : Type)
  | move (t : T) (e : Event)
  | setInterval (i : Nat)
  | tick

section KeepAlive

variable {T σ : Type} (exec : (c : RegCmd) → σ → c.Answer × σ)

def effect (pc : Pc) (g : Shared T σ) : Event → Effect
  | .run =>
    match pc with
    | .store _ (.start _) => .start
    | .command .kick _ => .kick
    | _ => .other
  | .expire => .fire
  | .handler =>
    match g.handler with
    | some .act => if g.priv.useWorkqueue then .queue else .kick
    | some (.store _) => .rearm
    | _ => .other
  | .takeWork => .take
  | .work => .kick
  | _ => .other

/-- `queued` says that there is work waiting already: `queue_work` then does nothing. -/
def Clock.after (c : Clock) (queued : Bool) : Effect → Clock
  | .start => { c with expires := c.now + c.interval, fresh := c.now }
  | .rearm => { c with expires := c.now + c.interval }
  | .fire => { c with due := c.expires }
  | .kick => { c with fresh := c.now, kicks := c.kicks + 1 }
  | .queue => if queued then c else { c with queuedAt := c.now }
  | .take => { c with takenAt := c.queuedAt }
  | .other => c

/-- The kernel is not late at `now`. -/
def OnTime (L W : Nat) (g : Shared T σ) (c : Clock) (now : Nat) : Prop :=
  (g.timerPending = true → now ≤ c.expires + L) ∧ (g.handler ≠ none → now ≤ c.due + L) ∧
    (g.queued = true → now ≤ c.queuedAt + W) ∧ (g.working = true → now ≤ c.takenAt + W)

instance (L W : Nat) (g : Shared T σ) (c : Clock) (now : Nat) : Decidable (OnTime L W g c now) :=
  inferInstanceAs (Decidable (_ ∧ _ ∧ _ ∧ _))

/-- A timer does not fire early. -/
def early (c : Clock) : Event → Bool
  | .expire => decide (c.now < c.expires)
  | _ => false

def Timed.step [DecidableEq T] (L W : Nat) (x : Timed T σ) : TimedEvent T → Option (Timed T σ)
  | .move t e =>
    if early x.clock e then none
    else (x.sys.step (move exec) (t, e)).map fun s =>
      ⟨s, x.clock.after x.sys.shared.queued (effect (x.sys.threads t) x.sys.shared e)⟩
  | .setInterval i => some { x with clock := { x.clock with interval := i } }
  | .tick =>
    if OnTime L W x.sys.shared x.clock (x.clock.now + 1) then
      some { x with clock := { x.clock with now := x.clock.now + 1 } }
    else none

/-! ## What the steps do to timer and work -/

/-- The part of the driver that the kicks depend on. -/
structure Beat where
  running : Bool
  pending : Bool
  handler : Option Handler
  queued : Bool
  working : Bool
  useWorkqueue : Bool
  hasQueue : Bool
  mapped : Bool

def Shared.beat (g : Shared T σ) : Beat where
  running := g.priv.timerRunning
  pending := g.timerPending
  handler := g.handler
  queued := g.queued
  working := g.working
  useWorkqueue := g.priv.useWorkqueue
  hasQueue := g.hasQueue
  mapped := g.mapped

/-- The assignment is one of a start or an enable command. -/
def Assign.Calm : Assign → Prop
  | .start _ => True
  | .state _ (.back _) => True
  | _ => False

/-- A thread that is not about to stop, probe or remove. -/
def Pc.Calm : Pc → Prop
  | .returned _ | .readBack _ => True
  | .command c _ => c ≠ .stop
  | .assign a => a.Calm
  | .store _ a => a.Calm
  | _ => False

/-- Nobody asks for a stop, and the driver stays where it is. -/
def Event.Quiet : Event → Prop
  | .write c _ => Command.ofChar c ≠ some .stop
  | .probe _ | .remove => False
  | _ => True

inductive BeatStep (b : Beat) : Effect → Beat → Prop
  | other : BeatStep b .other b
  | start : BeatStep b .start { b with running := true, pending := true }
  | kick : BeatStep b .kick b
  | fire : b.pending = true → b.handler = none →
      BeatStep b .fire { b with pending := false, handler := some .test }
  | test : b.handler = some .test →
      BeatStep b .other { b with handler := if b.running then some .act else none }
  | autoKick : b.handler = some .act → b.useWorkqueue = false →
      BeatStep b .kick { b with handler := some .restart }
  | queue : b.handler = some .act → b.useWorkqueue = true →
      BeatStep b .queue { b with queued := b.queued || b.hasQueue, handler := some .restart }
  | load {byte : Flags} : b.handler = some .restart →
      BeatStep b .other { b with handler := some (.store byte) }
  | restart {byte : Flags} : b.handler = some (.store byte) →
      BeatStep b .rearm { b with running := true, pending := true, handler := none }
  | take : b.queued = true → b.working = false →
      BeatStep b .take { b with queued := false, working := true }
  | work : b.working = true → BeatStep b .kick { b with working := false }

variable {exec}

/-- The store of a byte. -/
theorem store_beat (g : Shared T σ) {byte : Flags} {a : Assign} (hcalm : a.Calm)
    (hwhole : (Pc.store byte a).Whole g.priv.timerRunning) :
    a.pc.Calm ∧ BeatStep g.beat (effect (.store byte a) g .run)
      (a.mark (g.on fun w => a.write (w.reload byte))).beat := by
  cases a with
  | start ret => exact ⟨trivial, .start⟩
  | state st k =>
    cases k with
    | back ret =>
      have hbeat : (g.on fun w => setState st (w.reload byte)).beat = g.beat := by
        have hrunning : byte.timerRunning = g.priv.timerRunning := hwhole rfl
        show ({ g.beat with running := byte.timerRunning } : Beat) = g.beat
        rw [hrunning]
        rfl
      refine ⟨trivial, ?_⟩
      show BeatStep g.beat .other (g.on fun w => setState st (w.reload byte)).beat
      rw [hbeat]
      exact .other
    | probed => exact absurd hcalm id
  | _ => exact absurd hcalm id

theorem runThread_beat {g g' : Shared T σ} {pc pc' : Pc} (hcalm : pc.Calm)
    (hwhole : pc.Whole g.priv.timerRunning) (h : runThread exec g pc = some (pc', g')) :
    pc'.Calm ∧ BeatStep g.beat (effect pc g .run) g'.beat := by
  cases pc with
  | returned ret => cases h
  | readBack len =>
    cases h
    exact ⟨trivial, .other⟩
  | command c len =>
    cases c with
    | stop => exact absurd rfl hcalm
    | kick =>
      cases h
      exact ⟨trivial, .kick⟩
    | start =>
      cases h
      exact ⟨trivial, .other⟩
    | enable on =>
      simp only [runThread] at h
      split at h <;>
      · cases h
        exact ⟨trivial, .other⟩
  | assign a =>
    cases h
    exact ⟨hcalm, .other⟩
  | store byte a =>
    cases h
    exact store_beat g hcalm hwhole
  | _ => exact absurd hcalm id

theorem queueWork_beat (g : Shared T σ) :
    g.queueWork.beat = { g.beat with queued := g.queued || g.hasQueue } := by
  unfold Shared.queueWork
  cases hqueue : g.hasQueue with
  | false =>
    rw [if_neg Bool.false_ne_true, Bool.or_false]
    rfl
  | true =>
    rw [if_pos rfl, Bool.or_true]
    rfl

theorem runHandler_beat {g g' : Shared T σ} {pc : Pc} (h : runHandler exec g = some g') :
    BeatStep g.beat (effect pc g .handler) g'.beat := by
  cases hhandler : g.handler with
  | none =>
    simp only [runHandler, hhandler] at h
    cases h
  | some phase =>
    cases phase with
    | test =>
      simp only [runHandler, hhandler, Option.some.injEq] at h
      subst h
      simp only [effect, hhandler]
      exact .test hhandler
    | act =>
      simp only [runHandler, hhandler, Option.some.injEq] at h
      subst h
      simp only [effect, hhandler]
      cases huse : g.priv.useWorkqueue with
      | false => exact .autoKick hhandler huse
      | true =>
        have hbeat : ({ g.queueWork with handler := some .restart } : Shared T σ).beat =
            { g.beat with queued := g.queued || g.hasQueue, handler := some .restart } := by
          have hqueue := queueWork_beat g
          simp only [Shared.beat, Beat.mk.injEq] at hqueue ⊢
          obtain ⟨hrun, hpend, -, hq, hwork, huse', hhas, hmap⟩ := hqueue
          exact ⟨hrun, hpend, trivial, hq, hwork, huse', hhas, hmap⟩
        rw [if_pos rfl, if_pos rfl, hbeat]
        exact .queue hhandler huse
    | restart =>
      simp only [runHandler, hhandler, Option.some.injEq] at h
      subst h
      simp only [effect, hhandler]
      exact .load hhandler
    | store byte =>
      simp only [runHandler, hhandler, Option.some.injEq] at h
      subst h
      simp only [effect, hhandler]
      exact .restart hhandler

/-- **One step**, by a thread that is calm and on an event that is quiet. -/
theorem move_beat {t : T} {g g' : Shared T σ} {pc pc' : Pc} {e : Event} (hcalm : pc.Calm)
    (hquiet : e.Quiet) (hwhole : e = .run → pc.Whole g.priv.timerRunning)
    (h : move exec t pc g e = some (pc', g')) :
    pc'.Calm ∧ BeatStep g.beat (effect pc g e) g'.beat := by
  cases e with
  | probe env => exact absurd hquiet id
  | remove => exact absurd hquiet id
  | write c len =>
    simp only [move] at h
    split at h
    · split at h
      · next command hcommand =>
        cases h
        refine ⟨?_, .other⟩
        rintro rfl
        exact hquiet hcommand
      · cases h
        exact ⟨trivial, .other⟩
    · cases h
  | run => exact runThread_beat hcalm (hwhole rfl) h
  | expire =>
    simp only [move] at h
    split at h
    · next hfire =>
      cases h
      exact ⟨hcalm, .fire hfire.1 hfire.2⟩
    · cases h
  | handler =>
    obtain ⟨g₁, hrun, heq⟩ := Option.map_eq_some_iff.mp h
    cases heq
    exact ⟨hcalm, runHandler_beat hrun⟩
  | takeWork =>
    simp only [move] at h
    split at h
    · next htake =>
      cases h
      exact ⟨hcalm, .take htake.1 (Bool.eq_false_iff.mpr htake.2)⟩
    · cases h
  | work =>
    simp only [move] at h
    split at h
    · next hwork =>
      cases h
      exact ⟨hcalm, .work hwork⟩
    · cases h

/-! ## The invariant -/

/-- The handler has kicked already. -/
def Handler.acted : Handler → Bool
  | .test | .act => false
  | .restart | .store _ => true

/-- `Alive` is about the beat and the clock only. While work is queued or being done, a kick is
under way, and nothing is asked of the timer; otherwise the timer, or the handler that will set it,
is close enough behind the last kick. -/
structure Alive (I L W : Nat) (b : Beat) (c : Clock) : Prop where
  running : b.running = true
  queue : b.useWorkqueue = true → b.hasQueue = true
  mapped : b.mapped = true
  interval : c.interval ≤ I
  past : c.fresh ≤ c.now
  armed : b.pending = true ∨ b.handler ≠ none
  timerInTime : b.pending = true → c.now ≤ c.expires + L
  handlerInTime : b.handler ≠ none → c.now ≤ c.due + L
  queuedInTime : b.queued = true → c.now ≤ c.queuedAt + W
  takenInTime : b.working = true → c.now ≤ c.takenAt + W
  soon : b.pending = true → c.expires ≤ c.now + I
  timer : b.pending = true →
    b.queued = true ∨ b.working = true ∨ c.expires ≤ c.fresh + L + I
  passed : b.handler ≠ none → c.due ≤ c.now
  before : ∀ phase, b.handler = some phase → phase.acted = false →
    b.queued = true ∨ b.working = true ∨ c.due ≤ c.fresh + L + I
  behind : ∀ phase, b.handler = some phase → phase.acted = true →
    b.queued = true ∨ b.working = true ∨ c.due ≤ c.fresh
  queuedSoon : b.queued = true →
    c.queuedAt ≤ c.now ∧ (b.working = true ∨ c.queuedAt ≤ c.fresh + 2 * L + I)
  takenSoon : b.working = true → c.takenAt ≤ c.fresh + 2 * L + I

section Invariant

variable {I L W : Nat} {b b' : Beat} {c : Clock}

theorem Alive.fresh (h : Alive I L W b c) : c.now ≤ c.fresh + (I + 2 * L + W) := by
  by_cases hworking : b.working = true
  · have htime := h.takenInTime hworking
    have hsoon := h.takenSoon hworking
    omega
  by_cases hqueued : b.queued = true
  · have htime := h.queuedInTime hqueued
    have hsoon := (h.queuedSoon hqueued).2.resolve_left hworking
    omega
  have hidle : ∀ {P : Prop}, b.queued = true ∨ b.working = true ∨ P → P := fun hor =>
    (hor.resolve_left hqueued).resolve_left hworking
  cases hhandler : b.handler with
  | none =>
    have hpending : b.pending = true := h.armed.resolve_right (not_not_intro hhandler)
    have htime := h.timerInTime hpending
    have hnear := hidle (h.timer hpending)
    omega
  | some phase =>
    have htime := h.handlerInTime (by rw [hhandler]; exact Option.some_ne_none _)
    cases hacted : phase.acted with
    | false =>
      have hnear := hidle (h.before phase hhandler hacted)
      omega
    | true =>
      have hnear := hidle (h.behind phase hhandler hacted)
      omega

/-- A kick settles everything. -/
theorem Alive.kicked (h : Alive I L W b c) (kicks : Nat) (hrunning : b'.running = b.running)
    (huse : b'.useWorkqueue = b.useWorkqueue) (hqueue : b'.hasQueue = b.hasQueue)
    (hmapped : b'.mapped = b.mapped) (hpending : b'.pending = b.pending)
    (hhandler : b'.handler = none ↔ b.handler = none) (hqueued : b'.queued = b.queued)
    (hworking : b'.working = true → b.working = true) :
    Alive I L W b' { c with fresh := c.now, kicks := kicks } where
  running := hrunning.trans h.running
  queue := by
    rw [huse, hqueue]
    exact h.queue
  mapped := hmapped.trans h.mapped
  interval := h.interval
  past := Nat.le_refl _
  armed := by
    rw [hpending, Ne, hhandler]
    exact h.armed
  timerInTime := by
    rw [hpending]
    exact h.timerInTime
  handlerInTime := by
    rw [Ne, hhandler]
    exact h.handlerInTime
  queuedInTime := by
    rw [hqueued]
    exact h.queuedInTime
  takenInTime := fun hw => h.takenInTime (hworking hw)
  soon := by
    rw [hpending]
    exact h.soon
  timer := by
    rw [hpending]
    intro hp
    have hsoon := h.soon hp
    exact .inr (.inr (by show c.expires ≤ c.now + L + I; omega))
  passed := by
    rw [Ne, hhandler]
    exact h.passed
  before := by
    intro phase hphase _
    have hsome : b.handler ≠ none := by
      rw [Ne, ← hhandler, hphase]
      exact Option.some_ne_none _
    have hpassed := h.passed hsome
    exact .inr (.inr (by show c.due ≤ c.now + L + I; omega))
  behind := by
    intro phase hphase _
    have hsome : b.handler ≠ none := by
      rw [Ne, ← hhandler, hphase]
      exact Option.some_ne_none _
    exact .inr (.inr (h.passed hsome))
  queuedSoon := by
    rw [hqueued]
    intro hq
    have hpast := (h.queuedSoon hq).1
    exact ⟨hpast, .inr (by show c.queuedAt ≤ c.now + 2 * L + I; omega)⟩
  takenSoon := by
    intro hw
    have hsoon := h.takenSoon (hworking hw)
    have hpast := h.past
    show c.takenAt ≤ c.now + 2 * L + I
    omega

/-- `mod_timer`, soon enough behind the last kick. -/
theorem Alive.rearmed (h : Alive I L W b c) {handler : Option Handler}
    (hhandler : handler = none ∨ handler = b.handler)
    (hsoon : b.queued = true ∨ b.working = true ∨ c.now ≤ c.fresh + L) :
    Alive I L W { b with running := true, pending := true, handler := handler }
      { c with expires := c.now + c.interval } := by
  have hinterval := h.interval
  have hsame : ∀ {phase}, handler = some phase → b.handler = some phase := by
    intro phase hphase
    rcases hhandler with hnone | hsame
    · rw [hnone] at hphase
      cases hphase
    · rw [← hsame, hphase]
  have hsome : handler ≠ none → b.handler ≠ none := by
    intro hne
    obtain ⟨phase, hphase⟩ := Option.ne_none_iff_exists'.mp hne
    rw [hsame hphase]
    exact Option.some_ne_none _
  exact
    { running := rfl
      queue := h.queue
      mapped := h.mapped
      interval := h.interval
      past := h.past
      armed := .inl rfl
      timerInTime := fun _ => by show c.now ≤ c.now + c.interval + L; omega
      handlerInTime := fun hne => h.handlerInTime (hsome hne)
      queuedInTime := h.queuedInTime
      takenInTime := h.takenInTime
      soon := fun _ => by show c.now + c.interval ≤ c.now + I; omega
      timer := fun _ => by
        refine hsoon.imp_right (Or.imp_right fun hnear => ?_)
        show c.now + c.interval ≤ c.fresh + L + I
        omega
      passed := fun hne => h.passed (hsome hne)
      before := fun phase hphase => h.before phase (hsame hphase)
      behind := fun phase hphase => h.behind phase (hsame hphase)
      queuedSoon := h.queuedSoon
      takenSoon := h.takenSoon }

/-- The timer fires, and not before its time. -/
theorem Alive.fired (h : Alive I L W b c) (hpending : b.pending = true)
    (htime : c.expires ≤ c.now) :
    Alive I L W { b with pending := false, handler := some .test } { c with due := c.expires } where
  running := h.running
  queue := h.queue
  mapped := h.mapped
  interval := h.interval
  past := h.past
  armed := .inr (Option.some_ne_none _)
  timerInTime := by
    intro hp
    cases hp
  handlerInTime := fun _ => h.timerInTime hpending
  queuedInTime := h.queuedInTime
  takenInTime := h.takenInTime
  soon := by
    intro hp
    cases hp
  timer := by
    intro hp
    cases hp
  passed := fun _ => htime
  before := fun _ _ _ => h.timer hpending
  behind := by
    rintro phase ⟨⟩ ⟨⟩
  queuedSoon := h.queuedSoon
  takenSoon := h.takenSoon

/-- The handler goes on to its next statement, still before its kick or still behind it. -/
theorem Alive.goesOn (h : Alive I L W b c) {phase next : Handler}
    (hhandler : b.handler = some phase) (hsame : next.acted = phase.acted) :
    Alive I L W { b with handler := some next } c := by
  have hsome : b.handler ≠ none := by
    rw [hhandler]
    exact Option.some_ne_none _
  refine { h with
    armed := .inr (Option.some_ne_none _)
    handlerInTime := fun _ => h.handlerInTime hsome
    passed := fun _ => h.passed hsome
    before := ?_
    behind := ?_ }
  · rintro _ ⟨⟩ hacted
    exact h.before phase hhandler (hsame.symm.trans hacted)
  · rintro _ ⟨⟩ hacted
    exact h.behind phase hhandler (hsame.symm.trans hacted)

/-- The test of `timer_running` lets the handler go on. -/
theorem Alive.tested (h : Alive I L W b c) (hhandler : b.handler = some .test) :
    Alive I L W { b with handler := if b.running then some .act else none } c := by
  rw [if_pos h.running]
  exact h.goesOn hhandler rfl

/-- `queue_work`, which is nothing new when there is work waiting. -/
theorem Alive.queued (h : Alive I L W b c) (hhandler : b.handler = some .act)
    (huse : b.useWorkqueue = true) :
    Alive I L W { b with queued := b.queued || b.hasQueue, handler := some .restart }
      (c.after b.queued .queue) := by
  have hsome : b.handler ≠ none := by
    rw [hhandler]
    exact Option.some_ne_none _
  have htime := h.handlerInTime hsome
  have hwaits : (b.queued || b.hasQueue) = true := by rw [h.queue huse, Bool.or_true]
  rw [hwaits]
  have hshared : ∀ q, (b.queued = true → q = c.queuedAt) → (b.queued = false → q = c.now) →
      Alive I L W { b with queued := true, handler := some .restart }
        { c with queuedAt := q } := by
    intro q hold hnew
    refine { h with
      armed := .inr (Option.some_ne_none _)
      handlerInTime := fun _ => htime
      passed := fun _ => h.passed hsome
      queuedInTime := fun _ => ?_
      timer := fun _ => .inl rfl
      before := fun _ _ _ => .inl rfl
      behind := fun _ _ _ => .inl rfl
      queuedSoon := fun _ => ?_ }
    · show c.now ≤ q + W
      cases hq : b.queued with
      | true =>
        rw [hold hq]
        exact h.queuedInTime hq
      | false =>
        rw [hnew hq]
        omega
    · show q ≤ c.now ∧ (b.working = true ∨ q ≤ c.fresh + 2 * L + I)
      cases hq : b.queued with
      | true =>
        rw [hold hq]
        exact h.queuedSoon hq
      | false =>
        rw [hnew hq]
        refine ⟨Nat.le_refl _, ?_⟩
        rcases h.before .act hhandler rfl with hq' | hworking | hnear
        · rw [hq] at hq'
          cases hq'
        · exact .inl hworking
        · exact .inr (by omega)
  cases hq : b.queued with
  | true =>
    refine hshared c.queuedAt (fun _ => rfl) ?_
    rw [hq]
    intro hn
    cases hn
  | false =>
    refine hshared c.now ?_ (fun _ => rfl)
    rw [hq]
    intro hn
    cases hn

/-- The worker takes the work up. -/
theorem Alive.taken (h : Alive I L W b c) (hqueued : b.queued = true)
    (hworking : b.working = false) :
    Alive I L W { b with queued := false, working := true } { c with takenAt := c.queuedAt } where
  running := h.running
  queue := h.queue
  mapped := h.mapped
  interval := h.interval
  past := h.past
  armed := h.armed
  timerInTime := h.timerInTime
  handlerInTime := h.handlerInTime
  queuedInTime := by
    intro hq
    cases hq
  takenInTime := fun _ => h.queuedInTime hqueued
  soon := h.soon
  timer := fun _ => .inr (.inl rfl)
  passed := h.passed
  before := fun _ _ _ => .inr (.inl rfl)
  behind := fun _ _ _ => .inr (.inl rfl)
  queuedSoon := by
    intro hq
    cases hq
  takenSoon := fun _ => (h.queuedSoon hqueued).2.resolve_left (by rw [hworking]; decide)

/-- **One step** keeps the driver alive, when the timer does not fire early. -/
theorem Alive.step (h : Alive I L W b c) {eff : Effect} (hstep : BeatStep b eff b')
    (htime : eff = .fire → c.expires ≤ c.now) : Alive I L W b' (c.after b.queued eff) := by
  cases hstep with
  | other => exact h
  | start =>
    have hkicked : Alive I L W b { c with fresh := c.now, kicks := c.kicks } :=
      h.kicked c.kicks rfl rfl rfl rfl rfl Iff.rfl rfl id
    exact hkicked.rearmed (.inr rfl) (.inr (.inr (Nat.le_add_right _ _)))
  | kick => exact h.kicked _ rfl rfl rfl rfl rfl Iff.rfl rfl id
  | fire hpending _ => exact h.fired hpending (htime rfl)
  | test hhandler => exact h.tested hhandler
  | autoKick hhandler _ =>
    refine h.kicked _ rfl rfl rfl rfl rfl ?_ rfl id
    rw [hhandler]
    exact iff_of_false (Option.some_ne_none _) (Option.some_ne_none _)
  | queue hhandler huse => exact h.queued hhandler huse
  | load hhandler => exact h.goesOn hhandler rfl
  | restart hhandler =>
    refine h.rearmed (.inl rfl) ?_
    have hbound := h.handlerInTime (by rw [hhandler]; exact Option.some_ne_none _)
    exact (h.behind _ hhandler rfl).imp_right (Or.imp_right fun hnear => by omega)
  | take hqueued hworking => exact h.taken hqueued hworking
  | work hworking =>
    refine h.kicked _ rfl rfl rfl rfl rfl Iff.rfl rfl ?_
    intro hw
    cases hw

end Invariant

/-! ## Runs -/

/-- No stop, no probe, no remove, no kick interval above `I`, and no store that undoes a start. -/
def QuietEvent (I : Nat) (x : Timed T σ) : TimedEvent T → Prop
  | .move t e =>
    e.Quiet ∧ (e = .run → (x.sys.threads t).Whole x.sys.shared.priv.timerRunning)
  | .setInterval i => i ≤ I
  | .tick => True

/-- A start command has just been executed; no handler was executing, and no work was queued or
being done. -/
structure Started (I : Nat) (x : Timed T σ) : Prop where
  calm : ∀ t, (x.sys.threads t).Calm
  running : x.sys.shared.priv.timerRunning = true
  pending : x.sys.shared.timerPending = true
  handler : x.sys.shared.handler = none
  queued : x.sys.shared.queued = false
  working : x.sys.shared.working = false
  queue : x.sys.shared.priv.useWorkqueue = true → x.sys.shared.hasQueue = true
  mapped : x.sys.shared.mapped = true
  interval : x.clock.interval ≤ I
  expires : x.clock.expires = x.clock.now + x.clock.interval
  fresh : x.clock.fresh = x.clock.now

section Runs

variable {I L W : Nat} {x x' x₀ : Timed T σ}

theorem effect_fire {pc : Pc} {g : Shared T σ} {e : Event} (h : effect pc g e = .fire) :
    e = .expire := by
  cases e with
  | expire => rfl
  | run =>
    simp only [effect] at h
    split at h <;> cases h
  | handler =>
    simp only [effect] at h
    split at h
    · split at h <;> cases h
    · cases h
    · cases h
  | write c len | probe env | remove | takeWork | work => cases h

theorem Started.alive (h : Started I x) : Alive I L W x.sys.shared.beat x.clock where
  running := h.running
  queue := h.queue
  mapped := h.mapped
  interval := h.interval
  past := Nat.le_of_eq h.fresh
  armed := .inl h.pending
  timerInTime := by
    intro _
    rw [h.expires]
    omega
  handlerInTime := fun hne => absurd h.handler hne
  queuedInTime := fun hq => absurd (h.queued.symm.trans hq) Bool.false_ne_true
  takenInTime := fun hw => absurd (h.working.symm.trans hw) Bool.false_ne_true
  soon := by
    have hinterval := h.interval
    intro _
    rw [h.expires]
    omega
  timer := by
    have hinterval := h.interval
    intro _
    refine .inr (.inr ?_)
    rw [h.expires, h.fresh]
    omega
  passed := fun hne => absurd h.handler hne
  before := by
    intro phase hphase
    have hnone := h.handler.symm.trans hphase
    cases hnone
  behind := by
    intro phase hphase
    have hnone := h.handler.symm.trans hphase
    cases hnone
  queuedSoon := fun hq => absurd (h.queued.symm.trans hq) Bool.false_ne_true
  takenSoon := fun hw => absurd (h.working.symm.trans hw) Bool.false_ne_true

/-- What holds along the run. -/
structure Kicking (I L W : Nat) (x : Timed T σ) : Prop where
  alive : Alive I L W x.sys.shared.beat x.clock
  calm : ∀ t, (x.sys.threads t).Calm

variable [DecidableEq T]

theorem calm_update {threads : T → Pc} {t : T} {pc' : Pc} (h : ∀ u, (threads u).Calm)
    (hcalm : pc'.Calm) (u : T) : (Function.update threads t pc' u).Calm :=
  (Function.forall_update_iff threads fun _ pc => pc.Calm).mpr ⟨hcalm, fun u _ => h u⟩ u

theorem Kicking.step (h : Kicking I L W x) {a : TimedEvent T} (hquiet : QuietEvent I x a)
    (hstep : x.step exec L W a = some x') : Kicking I L W x' := by
  cases a with
  | move t e =>
    simp only [Timed.step] at hstep
    split at hstep
    · cases hstep
    · next hlate =>
      obtain ⟨s, hs, rfl⟩ := Option.map_eq_some_iff.mp hstep
      obtain ⟨pc', g', hmove, rfl⟩ := Pool.step_cases hs
      obtain ⟨hcalm, hbeat⟩ := move_beat (h.calm t) hquiet.1 hquiet.2 hmove
      constructor
      · refine h.alive.step hbeat fun hfire => ?_
        obtain rfl := effect_fire hfire
        simpa only [early, decide_eq_true_eq, Nat.not_lt] using hlate
      · exact calm_update h.calm hcalm
  | setInterval i =>
    cases hstep
    exact ⟨{ h.alive with interval := hquiet }, h.calm⟩
  | tick =>
    simp only [Timed.step] at hstep
    split at hstep
    · next hontime =>
      cases hstep
      obtain ⟨htimer, hhandler, hqueued, htaken⟩ := hontime
      refine ⟨{ h.alive with
        past := Nat.le_succ_of_le h.alive.past
        timerInTime := htimer
        handlerInTime := hhandler
        queuedInTime := hqueued
        takenInTime := htaken
        soon := fun hp => ?_
        passed := fun hne => Nat.le_succ_of_le (h.alive.passed hne)
        queuedSoon := fun hq => ?_ }, h.calm⟩
      · have hsoon := h.alive.soon hp
        show x.clock.expires ≤ x.clock.now + 1 + I
        omega
      · obtain ⟨hpast, hnear⟩ := h.alive.queuedSoon hq
        exact ⟨Nat.le_succ_of_le hpast, hnear⟩
    · cases hstep

/-- What keeps the clock from going on is code that can run. -/
theorem not_stuck (t : T) (x : Timed T σ) :
    ∃ a x', x.step exec L W a = some x' ∧
      (a = .tick ∨ a = .move t .expire ∨ a = .move t .handler ∨ a = .move t .takeWork ∨
        a = .move t .work) := by
  by_cases hontime : OnTime L W x.sys.shared x.clock (x.clock.now + 1)
  · exact ⟨.tick, _, if_pos hontime, .inl rfl⟩
  have hmove : ∀ e : Event, early x.clock e = false →
      (∃ r, move exec t (x.sys.threads t) x.sys.shared e = some r) →
      ∃ x', x.step exec L W (.move t e) = some x' := by
    rintro e hearly ⟨r, hr⟩
    obtain ⟨s', hs'⟩ := Pool.step_of_move hr
    simp only [Timed.step, hearly, hs']
    exact ⟨_, rfl⟩
  have hhandler : x.sys.shared.handler ≠ none →
      ∃ x', x.step exec L W (.move t .handler) = some x' := by
    intro hne
    obtain ⟨phase, hphase⟩ := Option.ne_none_iff_exists'.mp hne
    refine hmove .handler rfl ?_
    cases phase <;> simp [move, runHandler, hphase]
  have hwork : x.sys.shared.working = true → ∃ x', x.step exec L W (.move t .work) = some x' :=
    fun hw => hmove .work rfl ⟨_, if_pos hw⟩
  by_cases hpending : x.sys.shared.timerPending = true ∧ x.clock.expires + L < x.clock.now + 1
  · by_cases hnone : x.sys.shared.handler = none
    · have hearly : early x.clock .expire = false := by
        simp only [early, decide_eq_false_iff_not]
        omega
      obtain ⟨x', hx'⟩ := hmove .expire hearly ⟨_, if_pos ⟨hpending.1, hnone⟩⟩
      exact ⟨_, x', hx', .inr (.inl rfl)⟩
    · obtain ⟨x', hx'⟩ := hhandler hnone
      exact ⟨_, x', hx', .inr (.inr (.inl rfl))⟩
  by_cases hsome : x.sys.shared.handler ≠ none
  · obtain ⟨x', hx'⟩ := hhandler hsome
    exact ⟨_, x', hx', .inr (.inr (.inl rfl))⟩
  by_cases hworking : x.sys.shared.working = true
  · obtain ⟨x', hx'⟩ := hwork hworking
    exact ⟨_, x', hx', .inr (.inr (.inr (.inr rfl)))⟩
  by_cases hqueued : x.sys.shared.queued = true
  · obtain ⟨x', hx'⟩ := hmove .takeWork rfl ⟨_, if_pos ⟨hqueued, hworking⟩⟩
    exact ⟨_, x', hx', .inr (.inr (.inr (.inl rfl)))⟩
  · refine absurd ⟨fun hp => ?_, fun hne => absurd hne hsome, fun hq => absurd hq hqueued,
      fun hw => absurd hw hworking⟩ hontime
    have hearly := not_and.mp hpending hp
    omega

/-- A quiet step of one thread. -/
theorem reach_move {t : T} {pc pc' : Pc} {g' : Shared T σ} {e : Event}
    (hreach : Reach (Timed.step exec L W) (QuietEvent I) x₀ x) (ht : x.sys.threads t = pc)
    (hearly : early x.clock e = false) (hquiet : e.Quiet)
    (hwhole : e = .run → pc.Whole x.sys.shared.priv.timerRunning)
    (hmove : move exec t pc x.sys.shared e = some (pc', g')) :
    Reach (Timed.step exec L W) (QuietEvent I) x₀
      ⟨⟨Function.update x.sys.threads t pc', g'⟩,
        x.clock.after x.sys.shared.queued (effect pc x.sys.shared e)⟩ := by
  subst ht
  refine hreach.tail (a := .move t e) ⟨hquiet, hwhole⟩ ?_
  simp only [Timed.step, hearly, Pool.step, hmove, Option.map_some]
  rfl

/-- A start command one jiffy later puts the kick off by one jiffy. -/
theorem Started.again (exec : (c : RegCmd) → σ → c.Answer × σ) (L W : Nat) {t : T} {ret : Int}
    (h : Started I x) (ht : x.sys.threads t = .returned ret) (hpos : 0 < x.clock.interval) :
    ∃ x', Reach (Timed.step exec L W) (QuietEvent I) x x' ∧ Started I x' ∧
      x'.sys.threads t = .returned 1 ∧ x'.clock.interval = x.clock.interval ∧
      x'.clock.now = x.clock.now + 1 ∧ x'.clock.kicks = x.clock.kicks := by
  have htick : x.step exec L W .tick =
      some { x with clock := { x.clock with now := x.clock.now + 1 } } := by
    refine if_pos ⟨fun _ => ?_, fun hne => absurd h.handler hne, fun hq => ?_, fun hw => ?_⟩
    · rw [h.expires]
      omega
    · rw [h.queued] at hq
      cases hq
    · rw [h.working] at hw
      cases hw
  have hquiet : Event.Quiet (.write 's'.toUInt8 1) := by
    show Command.ofChar 's'.toUInt8 ≠ some .stop
    decide
  have hticked : Reach (Timed.step exec L W) (QuietEvent I) x
      { x with clock := { x.clock with now := x.clock.now + 1 } } :=
    Reach.init.tail (a := .tick) trivial htick
  have hwritten := reach_move hticked ht rfl hquiet nofun rfl
  have hloaded := reach_move (e := .run) hwritten (Function.update_self ..) rfl trivial
    (fun _ => trivial) rfl
  have hstored := reach_move (e := .run) hloaded (Function.update_self ..) rfl trivial
    (fun _ => nofun) rfl
  refine ⟨_, hstored, ?_, Function.update_self .., rfl, rfl, rfl⟩
  have hcommand : (Pc.command .start 1).Calm := nofun
  exact ⟨calm_update (calm_update (calm_update h.calm hcommand) trivial) trivial, rfl, rfl,
    h.handler, h.queued, h.working, h.queue, h.mapped, h.interval, rfl, rfl⟩

/-- Commands that come faster than the interval: no kick at all. -/
theorem Started.starves {t : T} {ret : Int} (h : Started I x)
    (ht : x.sys.threads t = .returned ret) (hpos : 0 < x.clock.interval) (n : Nat) :
    ∃ x', Reach (Timed.step exec L W) (QuietEvent I) x x' ∧ x'.clock.now = x.clock.now + n ∧
      x'.clock.kicks = x.clock.kicks := by
  induction n generalizing x ret with
  | zero => exact ⟨x, .init, rfl, rfl⟩
  | succ n ih =>
    obtain ⟨x₁, hreach, hstarted, ht₁, hinterval, hnow, hkicks⟩ :=
      h.again exec L W ht hpos
    obtain ⟨x₂, hreach₂, hnow₂, hkicks₂⟩ := ih hstarted ht₁ (by rw [hinterval]; exact hpos)
    refine ⟨x₂, hreach.trans hreach₂, ?_, hkicks₂.trans hkicks⟩
    rw [hnow₂, hnow]
    omega

/-- **The kicks come in time.** From a start command on that finds no handler and no work, while
nobody stops or removes the driver, the kick interval stays at most `I` and no enable command writes
an old `timer_running` back: in every interleaving of commands, handler and worker the
last kick or start command is at most `I + 2 * L + W` ago, the timer stays on, the registers stay
mapped, and what the clock waits for can run. But start commands are no kicks: with commands that
come faster than the interval, any time can pass without one. -/
theorem dev_watchdog_keeps_alive (exec : (c : RegCmd) → σ → c.Answer × σ) (L W : Nat) {t : T}
    {ret : Int} (hstart : Started I x₀) (ht : x₀.sys.threads t = .returned ret) :
    (∀ x, Reach (Timed.step exec L W) (QuietEvent I) x₀ x →
      x.clock.now ≤ x.clock.fresh + (I + 2 * L + W) ∧
      x.sys.shared.priv.timerRunning = true ∧ x.sys.shared.mapped = true ∧
      ∃ a x', x.step exec L W a = some x' ∧
        (a = .tick ∨ a = .move t .expire ∨ a = .move t .handler ∨ a = .move t .takeWork ∨
          a = .move t .work)) ∧
    (0 < x₀.clock.interval → ∀ n, ∃ x, Reach (Timed.step exec L W) (QuietEvent I) x₀ x ∧
      x.clock.now = x₀.clock.now + n ∧ x.clock.kicks = x₀.clock.kicks) := by
  constructor
  · intro x hreach
    have hkicking : Kicking I L W x :=
      hreach.invariant ⟨hstart.alive, hstart.calm⟩ fun h hquiet hstep => h.step hquiet hstep
    exact ⟨hkicking.alive.fresh, hkicking.alive.running, hkicking.alive.mapped, not_stuck t x⟩
  · exact hstart.starves ht

end Runs

end KeepAlive

/-- Probed, and started at time 5 with an interval of 3. Commands keep it from kicking for a hundred
jiffies; the last of them is no more than 9 ago. -/
theorem dev_watchdog_keeps_alive_for_commands :
    ∃ s, runFrom (Pool.step (move (execReg singleRegister .zero))) (boot (T := Unit) 0)
        (((), .probe goodEnv) :: List.replicate 12 ((), .run) ++
          [((), .write 's'.toUInt8 1), ((), .run), ((), .run)]) = some s ∧
      ∃ x, Reach (Timed.step (execReg singleRegister .zero) 2 2) (QuietEvent 3)
          ⟨s, ⟨5, 3, 8, 0, 0, 0, 5, 0⟩⟩ x ∧
        x.clock.now = 105 ∧ x.clock.kicks = 0 ∧ 105 ≤ x.clock.fresh + 9 := by
  obtain ⟨s, hrun, hreturned, hstarted⟩ : ∃ s,
      runFrom (Pool.step (move (execReg singleRegister .zero))) (boot (T := Unit) 0)
        (((), .probe goodEnv) :: List.replicate 12 ((), .run) ++
          [((), .write 's'.toUInt8 1), ((), .run), ((), .run)]) = some s ∧
      s.threads () = .returned 1 ∧ Started 3 ⟨s, ⟨5, 3, 8, 0, 0, 0, 5, 0⟩⟩ := by
    refine ⟨_, rfl, rfl, ?_⟩
    exact ⟨fun _ => trivial, rfl, rfl, rfl, rfl, rfl, fun _ => rfl, rfl, Nat.le_refl 3,
      rfl, rfl⟩
  obtain ⟨halive, hstarve⟩ :=
    dev_watchdog_keeps_alive (execReg singleRegister .zero) 2 2 hstarted hreturned
  obtain ⟨x, hreach, hnow, hkicks⟩ := hstarve (Nat.succ_pos 2) 100
  have hfresh := (halive x hreach).1
  rw [hnow] at hfresh
  exact ⟨s, hrun, x, hreach, hnow, hkicks, hfresh⟩

end LinuxDeviceDriver.Watchdog
