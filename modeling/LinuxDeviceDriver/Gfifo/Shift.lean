import LinuxDeviceDriver.Gfifo.Contract

/-!
# The `memcpy` of `gfifo_read`

A read shifts the bytes it leaves in the FIFO to the front with
`memcpy(dev->mem, dev->mem + count, dev->cur_len - count)`. The C function asks for
ranges that do not overlap; what it does with others is up to the platform.
`gfifoRead` has the ascending copy, which shifts correctly in any case. The
platform's `memcpy` is any copy that keeps the contract (`gfifoReadWith`), and
`gfifo_shift_apart_iff` says when the contract is enough.
-/

namespace LinuxDeviceDriver.Gfifo

open Lib

/-- The arguments of a `memcpy` inside of `mem`. -/
structure CopyArgs where
  dst : Nat
  src : Nat
  n : Nat
deriving DecidableEq, Repr

/-- `memcpy(dev->mem, dev->mem + count, dev->cur_len - count)` -/
def shiftArgs (dev : GfifoDev) (count : Nat) : CopyArgs := ⟨0, count, dev.curLen - count⟩

/-- The `memcpy` that one stay of `gfifo_read` executes, if it gets there. -/
def shiftCall (dev : GfifoDev) (req : UserReq) : Option CopyArgs :=
  if dev.curLen = 0 then none
  else
    let count := clampCount req.size dev.curLen
    if (copyToUser dev.mem count req.userOk).2 ≠ 0 then none
    else some (shiftArgs dev count)

/-- Which `memcpy` it is matters only for the call of it. -/
theorem gfifoReadWith_congr {memcpy memcpy' : Memcpy Byte} {dev : GfifoDev} {req : UserReq}
    (h : ∀ args, shiftCall dev req = some args →
      memcpy.copy dev.mem args.dst args.src args.n =
        memcpy'.copy dev.mem args.dst args.src args.n) :
    gfifoReadWith memcpy dev req = gfifoReadWith memcpy' dev req := by
  unfold gfifoReadWith
  split
  · rfl
  next hlen =>
  unfold gfifoReadBodyWith
  dsimp only
  split
  · rfl
  next hleft =>
  have hcall : shiftCall dev req = some (shiftArgs dev (clampCount req.size dev.curLen)) := by
    unfold shiftCall
    rw [if_neg hlen]
    exact if_neg hleft
  have hcopy : memcpy.copy dev.mem 0 (clampCount req.size dev.curLen)
        (dev.curLen - clampCount req.size dev.curLen) =
      memcpy'.copy dev.mem 0 (clampCount req.size dev.curLen)
        (dev.curLen - clampCount req.size dev.curLen) := h _ hcall
  rw [hcopy]

/-- The ranges of the shift have no cell in common. -/
def ShiftApart (dev : GfifoDev) (req : UserReq) : Prop :=
  ∀ args, shiftCall dev req = some args → Apart args.dst args.src args.n

/-- The read takes at least half of the queued bytes, or faults before the shift. -/
def TakesHalf (dev : GfifoDev) (req : UserReq) : Prop :=
  dev.curLen ≤ 2 * req.size ∨ req.userOk < min req.size dev.curLen

theorem shiftApart_iff (dev : GfifoDev) (req : UserReq) :
    ShiftApart dev req ↔ TakesHalf dev req := by
  have hclamp := clampCount_eq_min req dev.curLen
  unfold ShiftApart TakesHalf shiftCall
  split
  · next hempty =>
    refine iff_of_true (fun args h => ?_) (Or.inl (by omega))
    cases h
  dsimp only
  rw [hclamp]
  split
  · next hleft =>
    refine iff_of_true (fun args h => ?_) (Or.inr ?_)
    · cases h
    · simp only [copyToUser] at hleft
      omega
  next hleft =>
  have huser : ¬ req.userOk < min req.size dev.curLen := by
    simp only [copyToUser] at hleft
    omega
  have hranges : Apart (shiftArgs dev (min req.size dev.curLen)).dst
      (shiftArgs dev (min req.size dev.curLen)).src (shiftArgs dev (min req.size dev.curLen)).n ↔
      dev.curLen ≤ 2 * req.size := by
    refine apart_zero_iff.trans ?_
    dsimp only [shiftArgs]
    omega
  rw [or_iff_left huser, ← hranges]
  constructor
  · exact fun h => h _ rfl
  · intro hapart args h
    obtain rfl := Option.some.inj h
    exact hapart

/-- **The shift keeps to the contract of `memcpy` exactly when the read takes at least half of
what is queued** (or does not get to the shift); then every `memcpy` that keeps the contract, in
whatever order it copies, leaves the FIFO as the ascending one does. -/
theorem gfifo_shift_apart_iff (dev : GfifoDev) (req : UserReq) :
    (ShiftApart dev req ∧
      ∀ memcpy : Memcpy Byte, gfifoReadWith memcpy dev req = gfifoRead dev req) ↔
    TakesHalf dev req := by
  constructor
  · exact fun h => (shiftApart_iff dev req).mp h.1
  · intro hhalf
    have hapart := (shiftApart_iff dev req).mpr hhalf
    refine ⟨hapart, fun memcpy => gfifoReadWith_congr fun args hargs => ?_⟩
    rw [memcpy.contract _ (hapart args hargs), Memcpy.ascending.contract _ (hapart args hargs)]

/-- Three bytes are written. -/
def offerThree : List (Event Bool) :=
  [.enter true (.write (fun i => UInt8.ofNat (1 + i)) threeBytes)]

/-- A read that asks for `n` bytes and does not wait. -/
def takeUpTo (n : Nat) (h : n < 2 ^ 31) : UserReq := ⟨n, true, n, h⟩

/-- Two of three bytes are taken: copying in descending order is as good. -/
theorem gfifo_shift_two_of_three :
    ∃ s, runFrom (step 4096) .fresh offerThree = some s ∧
      shiftCall s.dev (takeUpTo 2 (by decide)) = some ⟨0, 2, 1⟩ ∧
      gfifoReadWith .descending s.dev (takeUpTo 2 (by decide)) =
        gfifoRead s.dev (takeUpTo 2 (by decide)) := by
  obtain ⟨s, hrun, hlen, hcall⟩ : ∃ s, runFrom (step 4096) .fresh offerThree = some s ∧
      s.dev.curLen = 3 ∧ shiftCall s.dev (takeUpTo 2 (by decide)) = some ⟨0, 2, 1⟩ :=
    ⟨_, rfl, rfl, rfl⟩
  have hhalf : TakesHalf s.dev (takeUpTo 2 (by decide)) := by
    left
    rw [hlen]
    decide
  exact ⟨s, hrun, hcall, ((gfifo_shift_apart_iff _ _).mpr hhalf).2 .descending⟩

/-- One of three bytes is taken. The ranges share a byte, and a `memcpy` that begins at the end
loses the second byte and doubles the third. -/
theorem gfifo_shift_one_of_three :
    ∃ s, runFrom (step 4096) .fresh offerThree = some s ∧
      shiftCall s.dev (takeUpTo 1 (by decide)) = some ⟨0, 1, 2⟩ ∧ ¬ Apart 0 1 2 ∧
      slice (gfifoRead s.dev (takeUpTo 1 (by decide))).2.mem 0 2 = [2, 3] ∧
      slice (gfifoReadWith .descending s.dev (takeUpTo 1 (by decide))).2.mem 0 2 = [3, 3] := by
  refine ⟨_, rfl, rfl, fun hapart => ?_, by decide, by decide⟩
  exact hapart 1 0 (by decide) (by decide) rfl

end LinuxDeviceDriver.Gfifo
