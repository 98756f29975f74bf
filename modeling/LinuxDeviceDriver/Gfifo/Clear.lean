import LinuxDeviceDriver.Gfifo.Interleaving

/-!
# What `MEM_CLEAR` leaves behind

`gfifo_ioctl(MEM_CLEAR)` zeroes the array; the fill level `cur_len` stays as it
is. User space can tell a cleared FIFO from a fresh one exactly when it was not
empty (`gfifo_clear_fresh_iff`): the cleared FIFO still offers its old number of
bytes, all of them zero.

Two devices are compared by what they answer: `answers` runs a list of reads,
writes and polls, one stay inside the mutex each, and collects return codes,
bytes and poll masks. A call that sleeps shows up as `Stay.sleep`; its next stay
is a later operation of the list.
-/

namespace LinuxDeviceDriver.Gfifo

open Lib

inductive Op
  | call (c : Call)
  | poll

inductive Answer
  | stay (stay : Stay)
  | mask (mask : Nat)

def Op.run (gfifoSize : Nat) (dev : GfifoDev) : Op → Answer × GfifoDev
  | .call c => (.stay (c.stay gfifoSize dev).1, (c.stay gfifoSize dev).2)
  | .poll => (.mask (gfifoPoll gfifoSize dev), dev)

/-- No sequence of reads, writes and polls tells the two devices apart. -/
def ObsEq (gfifoSize : Nat) (dev dev' : GfifoDev) : Prop :=
  ∀ ops, (answers (Op.run gfifoSize) dev ops).1 = (answers (Op.run gfifoSize) dev' ops).1

/-- The bytes a successful write has taken. -/
def Op.taken : Op → Answer → List Byte
  | .call (.write buf _), .stay (.leave (.ok n) _) => slice buf 0 n
  | _, _ => []

/-- The bytes a successful read has returned. -/
def Op.returned : Op → Answer → List Byte
  | .call (.read _), .stay (.leave (.ok _) out) => out
  | _, _ => []

/-- The bytes taken and the bytes returned by a list of operations. -/
def history (gfifoSize : Nat) : GfifoDev → List Op → List Byte × List Byte
  | _, [] => ([], [])
  | dev, op :: ops =>
    let r := op.run gfifoSize dev
    let rest := history gfifoSize r.2 ops
    (op.taken r.1 ++ rest.1, op.returned r.1 ++ rest.2)

variable {gfifoSize : Nat}

/-! ## A fresh device returns only what was written to it -/

/-- One stay, seen through the histories of the device with its callers. -/
theorem runStay_history (gfifoSize : Nat) (f : Fifo Unit) (c : Call) :
    (f.runStay gfifoSize () c).2.dev = ((Op.call c).run gfifoSize f.dev).2 ∧
    (f.runStay gfifoSize () c).2.accepted =
      f.accepted ++ (Op.call c).taken ((Op.call c).run gfifoSize f.dev).1 ∧
    (f.runStay gfifoSize () c).2.delivered =
      f.delivered ++ (Op.call c).returned ((Op.call c).run gfifoSize f.dev).1 := by
  refine ⟨Fifo.record_dev _ _ _, ?_⟩
  simp only [Fifo.runStay, Op.run]
  generalize (c.stay gfifoSize f.dev).1 = stay
  cases stay with
  | sleep => cases c <;> exact ⟨(List.append_nil _).symm, (List.append_nil _).symm⟩
  | leave ret out =>
    cases ret with
    | error e => cases c <;> exact ⟨(List.append_nil _).symm, (List.append_nil _).symm⟩
    | ok n =>
      cases c with
      | read req => exact ⟨(List.append_nil _).symm, rfl⟩
      | write buf req => exact ⟨rfl, (List.append_nil _).symm⟩

/-- Whatever is done to a device that holds a bounded queue, what it has taken is what
it has returned and a rest. -/
theorem history_balanced (ops : List Op) :
    ∀ {f : Fifo Unit} {l : Ledger Byte gfifoSize}, Represents f l →
      ∃ queued, f.accepted ++ (history gfifoSize f.dev ops).1 =
        f.delivered ++ (history gfifoSize f.dev ops).2 ++ queued := by
  induction ops with
  | nil =>
    intro f l h
    refine ⟨l.queue.items, ?_⟩
    rw [history, List.append_nil, List.append_nil, h.accepted, h.delivered]
    exact l.balanced
  | cons op ops ih =>
    intro f l h
    cases op with
    | poll => exact ih h
    | call c =>
      have hrun : f.runStay gfifoSize () c =
        ((f.runStay gfifoSize () c).1, (f.runStay gfifoSize () c).2) := rfl
      obtain ⟨⟨l', h'⟩, -⟩ := runStay_represents h hrun
      obtain ⟨hdev, haccepted, hdelivered⟩ := runStay_history gfifoSize f c
      obtain ⟨queued, hqueued⟩ := ih h'
      rw [hdev, haccepted, hdelivered] at hqueued
      exact ⟨queued, by simpa [history] using hqueued⟩

/-! ## The cleared device -/

/-- Zeroing an empty FIFO makes it the fresh one. -/
theorem gfifoMemClear_of_empty {dev : GfifoDev} (h : WaitQueue.InBounds gfifoSize dev)
    (hempty : dev.curLen = 0) : gfifoMemClear gfifoSize dev = .fresh := by
  have hmem : blit dev.mem id (fun _ => 0) gfifoSize = fun _ => 0 := by
    funext x
    by_cases hx : x < gfifoSize
    · exact blit_lane dev.mem id _ (fun j _ hxj => hxj) hx
    · rw [blit_frame _ _ _ fun i hi => by simp only [id]; omega]
      exact h.untouched x (Nat.le_of_not_lt hx)
  rw [gfifoMemClear, hmem, hempty]
  rfl

/-- The bit `POLLIN` says whether there is something to read. -/
theorem gfifoPoll_testBit (gfifoSize : Nat) (dev : GfifoDev) :
    (gfifoPoll gfifoSize dev).testBit 0 = decide (dev.curLen ≠ 0) := by
  have hout : (if dev.curLen ≠ gfifoSize then pollOut else 0).testBit 0 = false := by
    split <;> rfl
  rw [gfifoPoll, Nat.testBit_or, hout, Bool.or_false]
  by_cases hempty : dev.curLen = 0
  · simp [hempty]
  · simp [hempty, pollIn]

/-- Behind a clear, one poll shows that the fill level has survived. -/
theorem curLen_of_cleared_obsEq {dev : GfifoDev}
    (h : ObsEq gfifoSize (gfifoIoctl gfifoSize memClearCmd dev).2 .fresh) : dev.curLen = 0 := by
  have hanswer := h [.poll]
  simp only [answers, Op.run, List.cons.injEq, Answer.mask.injEq] at hanswer
  have hbit := congrArg (Nat.testBit · 0) hanswer.1
  rw [gfifoPoll_testBit, gfifoPoll_testBit] at hbit
  have hempty : (gfifoIoctl gfifoSize memClearCmd dev).2.curLen = 0 := by
    simpa [GfifoDev.fresh, decide_eq_false_iff_not] using hbit
  exact hempty

/-- **A cleared FIFO answers like a fresh one** exactly when it was empty; and then its
reads return nothing but what has been written since, in order. -/
theorem gfifo_clear_fresh_iff {Tid : Type} [DecidableEq Tid] {s : WaitQueue.Sys Tid}
    (h : Reach (WaitQueue.step gfifoSize) anyStep .fresh s) :
    (ObsEq gfifoSize (gfifoIoctl gfifoSize memClearCmd s.dev).2 .fresh ↔ s.dev.curLen = 0) ∧
    (s.dev.curLen = 0 → ∀ ops, ∃ queued,
      (history gfifoSize (gfifoIoctl gfifoSize memClearCmd s.dev).2 ops).1 =
        (history gfifoSize (gfifoIoctl gfifoSize memClearCmd s.dev).2 ops).2 ++ queued) := by
  have hbounds := WaitQueue.reach_inBounds h
  have hclear (hempty : s.dev.curLen = 0) :
      (gfifoIoctl gfifoSize memClearCmd s.dev).2 = .fresh :=
    gfifoMemClear_of_empty hbounds hempty
  refine ⟨⟨curLen_of_cleared_obsEq, fun hempty ops => ?_⟩, fun hempty ops => ?_⟩
  · rw [hclear hempty]
  · rw [hclear hempty]
    have hfresh : Represents (.fresh : Fifo Unit) (.empty : Ledger Byte gfifoSize) :=
      ⟨rfl, rfl, rfl⟩
    exact history_balanced ops hfresh

/-- A writer puts one byte into the FIFO and returns. -/
def writeOneByte : List (WaitQueue.Action Bool) :=
  .call true (.write (fun _ => 65) ⟨1, true, 1, by decide⟩) :: List.replicate 8 (.run true)

/-- A reader takes what is there and returns. -/
def readItBack : List (WaitQueue.Action Bool) :=
  .call false (.read threeBytes) :: List.replicate 8 (.run false)

/-- A FIFO that was used and is empty again. -/
theorem gfifo_clear_fresh_iff_read_back :
    ∃ s, runFrom (WaitQueue.step 0x100) .fresh (writeOneByte ++ readItBack) = some s ∧
      ObsEq 0x100 (gfifoIoctl 0x100 memClearCmd s.dev).2 .fresh := by
  obtain ⟨s, hrun, hempty⟩ : ∃ s, runFrom (WaitQueue.step 0x100) .fresh
      (writeOneByte ++ readItBack) = some s ∧ s.dev.curLen = 0 := ⟨_, rfl, rfl⟩
  exact ⟨s, hrun, (gfifo_clear_fresh_iff (reach_runFrom hrun)).1.mpr hempty⟩

/-- One byte is written, and the FIFO is cleared: it is still readable, and a read
returns one byte where the fresh FIFO has none. -/
theorem gfifo_clear_still_readable :
    ∃ s, runFrom (WaitQueue.step 0x100) .fresh writeOneByte = some s ∧
      (answers (Op.run 0x100) (gfifoIoctl 0x100 memClearCmd s.dev).2
        [.poll, .call (.read threeBytes)]).1 = [.mask 0x145, .stay (.leave (.ok 1) [0])] ∧
      (answers (Op.run 0x100) .fresh [.poll, .call (.read threeBytes)]).1 =
        [.mask 0x104, .stay (.leave (.error .eagain) [])] ∧
      ¬ ObsEq 0x100 (gfifoIoctl 0x100 memClearCmd s.dev).2 .fresh := by
  obtain ⟨s, hrun, hlen⟩ : ∃ s, runFrom (WaitQueue.step 0x100) .fresh writeOneByte = some s ∧
      s.dev.curLen = 1 := ⟨_, rfl, rfl⟩
  have hbyte : slice (gfifoMemClear 0x100 s.dev).mem 0 1 = [0] := by
    have hzero := blit_lane s.dev.mem id (fun _ => 0) (n := 0x100) (i := 0)
      (fun j _ hj => hj) (by decide)
    simpa [slice, gfifoMemClear] using hzero
  have hanswers : (answers (Op.run 0x100) (gfifoIoctl 0x100 memClearCmd s.dev).2
      [.poll, .call (.read threeBytes)]).1 = [.mask 0x145, .stay (.leave (.ok 1) [0])] := by
    have hcleared : (gfifoIoctl 0x100 memClearCmd s.dev).2.curLen = 1 := hlen
    have hread : (Call.stay 0x100 (gfifoIoctl 0x100 memClearCmd s.dev).2 (.read threeBytes)).1 =
        .leave (.ok 1) (slice (gfifoMemClear 0x100 s.dev).mem 0 1) := by
      simp only [Call.stay, gfifoRead, gfifoReadWith, gfifoReadBodyWith, hcleared]
      rfl
    simp only [answers, Op.run, gfifoPoll, hcleared, hread, hbyte]
    rfl
  refine ⟨s, hrun, hanswers, rfl, fun hobs => ?_⟩
  rw [curLen_of_cleared_obsEq hobs] at hlen
  cases hlen

end LinuxDeviceDriver.Gfifo
