import LinuxDeviceDriver.Gfifo.Device
import LinuxDeviceDriver.Lib.BoundedQueue
import LinuxDeviceDriver.Lib.Transition

/-!
# The FIFO contract of gfifo

`Fifo` is the device with its callers, one event per stay inside the mutex: a
call enters (`enter`), or a caller that sleeps in `schedule()` comes back
(`wake`), with a signal pending or without. Sleeping callers overlap freely with
later calls, so a list of events is a sequence of `gfifo_read` and `gfifo_write`
calls in the order in which they get hold of the mutex.

The two histories `accepted` and `delivered` are what the user space of the
device can observe: the bytes of the successful writes and of the successful
reads. `Represents` relates the device to a bounded queue with a ledger;
`serve_represents` is the simulation step, and the contract
(`gfifo_fifo_contract`) is read off the ledger.
-/

namespace LinuxDeviceDriver.Gfifo

open Lib

inductive Call
  | read (req : UserReq)
  | write (buf : Nat → Byte) (req : UserReq)

/-- One stay of a call inside the mutex. -/
def Call.stay (gfifoSize : Nat) (dev : GfifoDev) : Call → Stay × GfifoDev
  | .read req => gfifoRead dev req
  | .write buf req => gfifoWrite gfifoSize dev buf req

variable {Tid : Type} [DecidableEq Tid]

/-- The device, the callers asleep in `schedule()`, and the two histories. -/
structure Fifo (Tid : Type) where
  dev : GfifoDev
  asleep : Tid → Option Call
  accepted : List Byte
  delivered : List Byte

def Fifo.fresh : Fifo Tid where
  dev := .fresh
  asleep := fun _ => none
  accepted := []
  delivered := []

inductive Event (Tid : Type)
  | enter (t : Tid) (c : Call)
  | wake (t : Tid) (signal : Bool)

/-- What a finished stay adds to the histories. -/
def Fifo.record (s : Fifo Tid) : Call → Stay → Fifo Tid
  | .read _, .leave (.ok _) out => { s with delivered := s.delivered ++ out }
  | .write buf _, .leave (.ok n) _ => { s with accepted := s.accepted ++ slice buf 0 n }
  | _, _ => s

omit [DecidableEq Tid] in
@[simp] theorem Fifo.record_dev (s : Fifo Tid) (c : Call) (stay : Stay) :
    (s.record c stay).dev = s.dev := by
  unfold Fifo.record
  split <;> rfl

omit [DecidableEq Tid] in
@[simp] theorem Fifo.record_asleep (s : Fifo Tid) (c : Call) (stay : Stay) :
    (s.record c stay).asleep = s.asleep := by
  unfold Fifo.record
  split <;> rfl

/-- Run one stay of `c` and record it; the caller sleeps or is gone afterwards. -/
def Fifo.runStay (gfifoSize : Nat) (s : Fifo Tid) (t : Tid) (c : Call) : Stay × Fifo Tid :=
  let (stay, dev) := c.stay gfifoSize s.dev
  let asleep := match stay with
    | .sleep => some c
    | .leave _ _ => none
  (stay, Fifo.record { s with dev := dev, asleep := Function.update s.asleep t asleep } c stay)

/-- Serve one event: which call it belongs to, how its stay ended, the new state. -/
def serve (gfifoSize : Nat) (s : Fifo Tid) : Event Tid → Option (Call × Stay × Fifo Tid)
  | .enter t c =>
    match s.asleep t with
    | some _ => none
    | none => some (c, s.runStay gfifoSize t c)
  | .wake t signal =>
    match s.asleep t with
    | none => none
    | some c =>
      if signal then
        -- `goto out2`: the mutex is not taken again
        some (c, .leave (.error .erestartsys) [],
          { s with asleep := Function.update s.asleep t none })
      else
        some (c, s.runStay gfifoSize t c)

def step (gfifoSize : Nat) (s : Fifo Tid) (e : Event Tid) : Option (Fifo Tid) :=
  (serve gfifoSize s e).map fun r => r.2.2

/-! ## Refinement of the bounded queue -/

section Refinement

variable {gfifoSize : Nat}

/-- The device holds the queue of the ledger in `mem[0..cur_len)`, and the
histories are the ledger's. -/
structure Represents (s : Fifo Tid) (l : Ledger Byte gfifoSize) : Prop where
  items : slice s.dev.mem 0 s.dev.curLen = l.queue.items
  accepted : s.accepted = l.pushed
  delivered : s.delivered = l.popped

omit [DecidableEq Tid] in
theorem Represents.curLen_eq {s : Fifo Tid} {l : Ledger Byte gfifoSize}
    (h : Represents s l) : s.dev.curLen = l.queue.items.length := by
  rw [← h.items, length_slice]

/-- What the device may do in one stay of a call, seen from outside: serve as
much as it can (a read delivers and removes the same `n` bytes from the front, a write
appends the first `n` of its buffer), or leave the queued bytes alone. -/
inductive StayOk (gfifoSize : Nat) (dev : GfifoDev) : Call → Stay → GfifoDev → Prop
  | read {req : UserReq} {n : Nat} {dev' : GfifoDev} : ReadDone dev req n dev' →
      StayOk gfifoSize dev (.read req) (.leave (.ok n) (slice dev.mem 0 n)) dev'
  | write {buf : Nat → Byte} {req : UserReq} {n : Nat} {dev' : GfifoDev} :
      WriteDone gfifoSize dev buf req n dev' →
      StayOk gfifoSize dev (.write buf req) (.leave (.ok n) []) dev'
  | error {c : Call} {err : Errno} {out : List Byte} {dev' : GfifoDev} :
      Undisturbed dev dev' → StayOk gfifoSize dev c (.leave (.error err) out) dev'
  | sleep {c : Call} {dev' : GfifoDev} :
      Undisturbed dev dev' → StayOk gfifoSize dev c .sleep dev'

omit [DecidableEq Tid] in
/-- Leaving the queued bytes and the histories alone keeps the representation. -/
theorem Represents.undisturbed {s s' : Fifo Tid} {l : Ledger Byte gfifoSize}
    (h : Represents s l) (hdev : Undisturbed s.dev s'.dev)
    (hacc : s'.accepted = s.accepted) (hdel : s'.delivered = s.delivered) :
    Represents s' l := by
  refine ⟨?_, hacc.trans h.accepted, hdel.trans h.delivered⟩
  rw [hdev.curLen, hdev.kept]
  exact h.items

omit [DecidableEq Tid] in
/-- A successful read pops the queue. -/
theorem Represents.read {s s' : Fifo Tid} {l : Ledger Byte gfifoSize}
    (h : Represents s l) {req : UserReq} {n : Nat} (hdone : ReadDone s.dev req n s'.dev)
    (hacc : s'.accepted = s.accepted)
    (hdel : s'.delivered = s.delivered ++ slice s.dev.mem 0 n) :
    Represents s' (l.pop n) := by
  have hn : n ≤ s.dev.curLen := by
    rw [hdone.count]
    exact Nat.min_le_right _ _
  refine ⟨?_, hacc.trans h.accepted, ?_⟩
  · show slice s'.dev.mem 0 s'.dev.curLen = l.queue.items.drop n
    rw [hdone.curLen, hdone.rest, ← h.items, slice_drop _ _ hn, Nat.zero_add]
  · show s'.delivered = l.popped ++ l.queue.items.take n
    rw [hdel, h.delivered, ← h.items, slice_take _ _ hn]

omit [DecidableEq Tid] in
/-- A successful write pushes onto the queue. -/
theorem Represents.write {s s' : Fifo Tid} {l : Ledger Byte gfifoSize}
    (h : Represents s l) {buf : Nat → Byte} {req : UserReq} {n : Nat}
    (hdone : WriteDone gfifoSize s.dev buf req n s'.dev)
    (hacc : s'.accepted = s.accepted ++ slice buf 0 n) (hdel : s'.delivered = s.delivered) :
    Represents s' (l.push (slice buf 0 req.size)) := by
  have hfit : l.queue.fitting (slice buf 0 req.size) = slice buf 0 n := by
    unfold BQueue.fitting
    rw [← h.curLen_eq, hdone.count]
    rcases Nat.le_total req.size (gfifoSize - s.dev.curLen) with hle | hle
    · rw [Nat.min_eq_left hle, List.take_of_length_le (by simpa using hle)]
    · rw [Nat.min_eq_right hle, slice_take _ _ hle]
  refine ⟨?_, ?_, hdel.trans h.delivered⟩
  · show slice s'.dev.mem 0 s'.dev.curLen = l.queue.items ++ l.queue.fitting _
    rw [hdone.curLen, slice_add, hdone.kept, h.items, Nat.zero_add, hdone.appended, hfit]
  · show s'.accepted = l.pushed ++ l.queue.fitting _
    rw [hacc, h.accepted, hfit]

/-- One stay simulates an operation of the bounded queue. -/
theorem runStay_represents {s s' : Fifo Tid} {l : Ledger Byte gfifoSize} (h : Represents s l)
    {t : Tid} {c : Call} {stay : Stay} (hrun : s.runStay gfifoSize t c = (stay, s')) :
    (∃ l' : Ledger Byte gfifoSize, Represents s' l') ∧
      StayOk gfifoSize s.dev c stay s'.dev := by
  cases c with
  | read req =>
    simp only [Fifo.runStay, Call.stay] at hrun
    rcases gfifoRead_cases s.dev req with hstay | ⟨err, out, hstay⟩ | ⟨n, dev', hstay, hdone⟩
    · rw [hstay] at hrun
      obtain ⟨rfl, rfl⟩ := Prod.mk.inj hrun
      exact ⟨⟨l, h.undisturbed (.refl _) rfl rfl⟩, .sleep (.refl _)⟩
    · rw [hstay] at hrun
      obtain ⟨rfl, rfl⟩ := Prod.mk.inj hrun
      exact ⟨⟨l, h.undisturbed (.refl _) rfl rfl⟩, .error (.refl _)⟩
    · rw [hstay] at hrun
      obtain ⟨rfl, rfl⟩ := Prod.mk.inj hrun
      exact ⟨⟨l.pop n, h.read hdone rfl rfl⟩, .read hdone⟩
  | write buf req =>
    simp only [Fifo.runStay, Call.stay] at hrun
    rcases gfifoWrite_cases gfifoSize s.dev buf req with
      hstay | ⟨err, dev', hstay, hkeep⟩ | ⟨n, dev', hstay, hdone⟩
    · rw [hstay] at hrun
      obtain ⟨rfl, rfl⟩ := Prod.mk.inj hrun
      exact ⟨⟨l, h.undisturbed (.refl _) rfl rfl⟩, .sleep (.refl _)⟩
    · rw [hstay] at hrun
      obtain ⟨rfl, rfl⟩ := Prod.mk.inj hrun
      exact ⟨⟨l, h.undisturbed hkeep rfl rfl⟩, .error hkeep⟩
    · rw [hstay] at hrun
      obtain ⟨rfl, rfl⟩ := Prod.mk.inj hrun
      exact ⟨⟨l.push (slice buf 0 req.size), h.write hdone rfl rfl⟩, .write hdone⟩

/-- **Simulation step**: whatever event is served, the device goes on to hold a
bounded queue, and the call behaves as `StayOk` says. -/
theorem serve_represents {s s' : Fifo Tid} {l : Ledger Byte gfifoSize} (h : Represents s l)
    {e : Event Tid} {c : Call} {stay : Stay} (hserve : serve gfifoSize s e = some (c, stay, s')) :
    (∃ l' : Ledger Byte gfifoSize, Represents s' l') ∧
      StayOk gfifoSize s.dev c stay s'.dev := by
  cases e with
  | enter t c₀ =>
    simp only [serve] at hserve
    split at hserve
    · cases hserve
    · obtain ⟨rfl, hrun⟩ := Prod.mk.inj (Option.some.inj hserve)
      exact runStay_represents h hrun
  | wake t signal =>
    simp only [serve] at hserve
    split at hserve
    · cases hserve
    · split at hserve
      · -- the signal path does not touch the device
        obtain ⟨rfl, hrest⟩ := Prod.mk.inj (Option.some.inj hserve)
        obtain ⟨rfl, rfl⟩ := Prod.mk.inj hrest
        exact ⟨⟨l, h.undisturbed (.refl _) rfl rfl⟩, .error (.refl _)⟩
      · obtain ⟨rfl, hrun⟩ := Prod.mk.inj (Option.some.inj hserve)
        exact runStay_represents h hrun

/-- Every reachable device holds some bounded queue with its ledger. -/
theorem reach_represents {s : Fifo Tid} (h : Reach (step gfifoSize) anyStep .fresh s) :
    ∃ l : Ledger Byte gfifoSize, Represents s l := by
  refine h.invariant (I := fun s => ∃ l : Ledger Byte gfifoSize, Represents s l) ?_ ?_
  · exact ⟨.empty, rfl, rfl, rfl⟩
  · rintro s s' e ⟨l, hl⟩ - hstep
    obtain ⟨⟨c, stay, s₁⟩, hserve, rfl⟩ := Option.map_eq_some_iff.mp hstep
    exact (serve_represents hl hserve).1

end Refinement

/-- **The FIFO contract**, for every capacity and along every sequence of calls:
the fill level stays within the array, the accepted bytes are the delivered ones
followed by the queued ones, and every stay serves what it can or disturbs
nothing. -/
theorem gfifo_fifo_contract {gfifoSize : Nat} {s : Fifo Tid}
    (h : Reach (step gfifoSize) anyStep .fresh s) :
    s.dev.curLen ≤ gfifoSize ∧
    s.accepted = s.delivered ++ slice s.dev.mem 0 s.dev.curLen ∧
    ∀ {e : Event Tid} {c : Call} {stay : Stay} {s' : Fifo Tid},
      serve gfifoSize s e = some (c, stay, s') → StayOk gfifoSize s.dev c stay s'.dev := by
  obtain ⟨l, hl⟩ := reach_represents h
  refine ⟨?_, ?_, fun hserve => (serve_represents hl hserve).2⟩
  · rw [hl.curLen_eq]
    exact l.queue.length_le
  · rw [hl.accepted, hl.delivered, hl.items]
    exact l.balanced

/-- A request for three bytes that does not wait. -/
def threeBytes : UserReq := ⟨3, true, 3, by decide⟩

/-- Six bytes are offered and then three are asked for. -/
def offerSixTakeThree : List (Event Bool) :=
  [.enter true (.write (fun i => UInt8.ofNat (10 + i)) ⟨6, false, 6, by decide⟩),
    .enter false (.read threeBytes)]

/-- The contract on a FIFO of four bytes, which takes four of the six. -/
theorem gfifo_fifo_contract_short_write :
    ∃ s, runFrom (step 4) .fresh offerSixTakeThree = some s ∧ s.delivered = [10, 11, 12] ∧
      s.dev.curLen ≤ 4 ∧ s.accepted = s.delivered ++ slice s.dev.mem 0 s.dev.curLen := by
  obtain ⟨s, hrun, hout⟩ : ∃ s, runFrom (step 4) .fresh offerSixTakeThree = some s ∧
      s.delivered = [10, 11, 12] := ⟨_, rfl, by decide⟩
  have hcontract := gfifo_fifo_contract (reach_runFrom hrun)
  exact ⟨s, hrun, hout, hcontract.1, hcontract.2.1⟩

end LinuxDeviceDriver.Gfifo
