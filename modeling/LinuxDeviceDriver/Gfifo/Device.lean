import LinuxDeviceDriver.Kernel

/-!
# The gfifo device: `gfifo_read`, `gfifo_write`, `gfifo_ioctl`, `gfifo_poll`

All gfifo variants of the repository (gfifo, gfifo_nonblock, gfifo_async,
gfifo_platform, gfifo_misc, gfifo_misc_n) run the same read and write code over a
linear buffer: a write appends at `mem + cur_len`, a read copies from the front
and shifts the rest down with `memcpy`. They differ in `GFIFO_SIZE` only, which
is a parameter here. The `memcpy` of the platform is one too, since the ranges of
the shift may overlap; `gfifoRead` has the ascending one, and `Gfifo.Shift` looks
at the others.

The functions are cut where the C code gives up the mutex. `gfifoRead` and
`gfifoWrite` describe one *stay* inside the mutex: the caller either finds the
FIFO empty (full) and goes to sleep in `schedule()`, or leaves with a result. A
caller that returns from `schedule()` without a pending signal takes the mutex
again and starts the next stay, which runs the same code.
-/

namespace LinuxDeviceDriver.Gfifo

open Lib

/-- `struct gfifo_dev`, as far as the data path goes. `mem` is the array
`mem[GFIFO_SIZE]`; an index from `GFIFO_SIZE` on would be the neighbouring
fields. -/
structure GfifoDev where
  mem : Nat → Byte
  curLen : Nat

/-- The device `kzalloc` hands out. -/
def GfifoDev.fresh : GfifoDev where
  mem := fun _ => 0
  curLen := 0

/-- A `read(2)` or `write(2)` as the VFS passes it on: the requested size (never
2^31 or more), `O_NONBLOCK`, and how many bytes of the user buffer can be
accessed before the copy faults. -/
structure UserReq where
  size : Nat
  nonblock : Bool
  userOk : Nat
  size_lt : size < 2 ^ 31

/-- How a stay inside the mutex ends. `out` is what reached the user buffer. -/
inductive Stay
  | sleep
  | leave (ret : Except Errno Nat) (out : List Byte)

/-- `unsigned int count = size`, cut down to what the FIFO can serve. -/
def clampCount (size avail : Nat) : Nat :=
  if toUInt32 size > avail then avail else toUInt32 size

/-- `gfifo_read` behind its waiting loop: copy out, shift the rest down. -/
def gfifoReadBodyWith (memcpy : Memcpy Byte) (dev : GfifoDev) (req : UserReq) :
    Except Errno Nat × List Byte × GfifoDev :=
  let count := clampCount req.size dev.curLen
  let (out, left) := copyToUser dev.mem count req.userOk
  if left ≠ 0 then
    (.error .efault, out, dev)
  else
    (.ok count, out,
      { mem := memcpy.copy dev.mem 0 count (dev.curLen - count), curLen := dev.curLen - count })

def gfifoReadBody (dev : GfifoDev) (req : UserReq) : Except Errno Nat × List Byte × GfifoDev :=
  gfifoReadBodyWith .ascending dev req

/-- `gfifo_write` behind its waiting loop: append at `mem + cur_len`. -/
def gfifoWriteBody (gfifoSize : Nat) (dev : GfifoDev) (buf : Nat → Byte) (req : UserReq) :
    Except Errno Nat × GfifoDev :=
  let count := clampCount req.size (gfifoSize - dev.curLen)
  let (mem, left) := copyFromUser dev.mem dev.curLen buf count req.userOk
  if left ≠ 0 then
    (.error .efault, { dev with mem := mem })
  else
    (.ok count, { mem := mem, curLen := dev.curLen + count })

/-- One stay of `gfifo_read` inside the mutex. -/
def gfifoReadWith (memcpy : Memcpy Byte) (dev : GfifoDev) (req : UserReq) : Stay × GfifoDev :=
  if dev.curLen = 0 then
    if req.nonblock then (.leave (.error .eagain) [], dev) else (.sleep, dev)
  else
    let (ret, out, dev') := gfifoReadBodyWith memcpy dev req
    (.leave ret out, dev')

def gfifoRead (dev : GfifoDev) (req : UserReq) : Stay × GfifoDev := gfifoReadWith .ascending dev req

/-- One stay of `gfifo_write` inside the mutex. -/
def gfifoWrite (gfifoSize : Nat) (dev : GfifoDev) (buf : Nat → Byte) (req : UserReq) :
    Stay × GfifoDev :=
  if dev.curLen = gfifoSize then
    if req.nonblock then (.leave (.error .eagain) [], dev) else (.sleep, dev)
  else
    let (ret, dev') := gfifoWriteBody gfifoSize dev buf req
    (.leave ret [], dev')

/-- `gfifo_ioctl(MEM_CLEAR)`: `memset(dev->mem, 0, GFIFO_SIZE)` and nothing else. -/
def gfifoMemClear (gfifoSize : Nat) (dev : GfifoDev) : GfifoDev :=
  { dev with mem := blit dev.mem id (fun _ => 0) gfifoSize }

/-- `MEM_CLEAR`. -/
def memClearCmd : Nat := 1

def gfifoIoctl (gfifoSize cmd : Nat) (dev : GfifoDev) : Int × GfifoDev :=
  if cmd = memClearCmd then (0, gfifoMemClear gfifoSize dev) else (Errno.einval.neg, dev)

/-- `POLLIN | POLLRDNORM`. -/
def pollIn : Nat := 0x0001 ||| 0x0040

/-- `POLLOUT | POLLWRNORM`. -/
def pollOut : Nat := 0x0004 ||| 0x0100

/-- `gfifo_poll`, of the variants that have it: the mask of what would not block. -/
def gfifoPoll (gfifoSize : Nat) (dev : GfifoDev) : Nat :=
  (if dev.curLen ≠ 0 then pollIn else 0) ||| (if dev.curLen ≠ gfifoSize then pollOut else 0)

/-! ## Specifications -/

/-- Below 2^31 the truncation to `unsigned int` is invisible. -/
theorem clampCount_eq_min (req : UserReq) (avail : Nat) :
    clampCount req.size avail = min req.size avail := by
  have hsize := req.size_lt
  unfold clampCount
  rw [toUInt32_of_lt (by omega)]
  split <;> omega

/-- The device after a successful read of `n` bytes: the rest has moved up to the
front, in order. -/
structure ReadDone (dev : GfifoDev) (req : UserReq) (n : Nat) (dev' : GfifoDev) : Prop where
  count : n = min req.size dev.curLen
  curLen : dev'.curLen = dev.curLen - n
  rest : slice dev'.mem 0 (dev.curLen - n) = slice dev.mem n (dev.curLen - n)

/-- The device after a successful write of `n` bytes: they stand behind the bytes
that were queued before. -/
structure WriteDone (gfifoSize : Nat) (dev : GfifoDev) (buf : Nat → Byte) (req : UserReq)
    (n : Nat) (dev' : GfifoDev) : Prop where
  count : n = min req.size (gfifoSize - dev.curLen)
  curLen : dev'.curLen = dev.curLen + n
  kept : slice dev'.mem 0 dev.curLen = slice dev.mem 0 dev.curLen
  appended : slice dev'.mem dev.curLen n = slice buf 0 n

/-- A call that failed or went to sleep: the queued bytes are the same. -/
structure Undisturbed (dev dev' : GfifoDev) : Prop where
  curLen : dev'.curLen = dev.curLen
  kept : slice dev'.mem 0 dev.curLen = slice dev.mem 0 dev.curLen

theorem Undisturbed.refl (dev : GfifoDev) : Undisturbed dev dev := ⟨rfl, rfl⟩

/-- A read body faults and changes nothing, or delivers the front of the FIFO. -/
theorem gfifoReadBody_spec (dev : GfifoDev) (req : UserReq) :
    (∃ out, gfifoReadBody dev req = (.error .efault, out, dev)) ∨
    (∃ n dev', gfifoReadBody dev req = (.ok n, slice dev.mem 0 n, dev') ∧
      ReadDone dev req n dev') := by
  have hclamp := clampCount_eq_min req dev.curLen
  unfold gfifoReadBody gfifoReadBodyWith
  rw [hclamp]
  generalize hn : min req.size dev.curLen = n
  simp only []
  by_cases hleft : (copyToUser dev.mem n req.userOk).2 = 0
  · right
    rw [if_neg (not_not_intro hleft), copyToUser_complete hleft]
    refine ⟨n, _, rfl, hn.symm, rfl, ?_⟩
    refine slice_congr fun i hi => ?_
    show copyAsc dev.mem 0 n _ (0 + i) = _
    rw [copyAsc_eq_blit dev.mem (Nat.zero_le n)]
    exact blit_lane _ (fun i => 0 + i) _ (fun j _ hij => by omega) hi
  · left
    rw [if_pos hleft]
    exact ⟨_, rfl⟩

/-- A write body faults behind the queued bytes, or appends the front of the user
buffer. -/
theorem gfifoWriteBody_spec (gfifoSize : Nat) (dev : GfifoDev) (buf : Nat → Byte)
    (req : UserReq) :
    (∃ dev', gfifoWriteBody gfifoSize dev buf req = (.error .efault, dev') ∧
      Undisturbed dev dev') ∨
    (∃ n dev', gfifoWriteBody gfifoSize dev buf req = (.ok n, dev') ∧
      WriteDone gfifoSize dev buf req n dev') := by
  have hclamp := clampCount_eq_min req (gfifoSize - dev.curLen)
  unfold gfifoWriteBody
  rw [hclamp]
  generalize hn : min req.size (gfifoSize - dev.curLen) = n
  have hkeep : slice (copyFromUser dev.mem dev.curLen buf n req.userOk).1 0 dev.curLen =
      slice dev.mem 0 dev.curLen := by
    refine slice_congr fun i hi => ?_
    exact copyFromUser_below _ _ _ _ (by omega)
  simp only []
  by_cases hleft : (copyFromUser dev.mem dev.curLen buf n req.userOk).2 = 0
  · right
    rw [if_neg (not_not_intro hleft)]
    refine ⟨n, _, rfl, hn.symm, rfl, hkeep, ?_⟩
    refine slice_congr fun i hi => ?_
    show (copyFromUser dev.mem dev.curLen buf n req.userOk).1 (dev.curLen + i) = buf (0 + i)
    rw [copyFromUser_complete hleft hi, Nat.zero_add]
  · left
    rw [if_pos hleft]
    exact ⟨_, rfl, rfl, hkeep⟩

/-- What a stay of `gfifo_read` inside the mutex can do. -/
theorem gfifoRead_cases (dev : GfifoDev) (req : UserReq) :
    gfifoRead dev req = (.sleep, dev) ∨
    (∃ err out, gfifoRead dev req = (.leave (.error err) out, dev)) ∨
    (∃ n dev', gfifoRead dev req = (.leave (.ok n) (slice dev.mem 0 n), dev') ∧
      ReadDone dev req n dev') := by
  unfold gfifoRead gfifoReadWith
  by_cases hempty : dev.curLen = 0
  · rw [if_pos hempty]
    cases req.nonblock with
    | true => exact Or.inr (Or.inl ⟨_, _, rfl⟩)
    | false => exact Or.inl rfl
  · rw [if_neg hempty]
    rcases gfifoReadBody_spec dev req with ⟨out, hbody⟩ | ⟨n, dev', hbody, hdone⟩
    · rw [gfifoReadBody] at hbody
      rw [hbody]
      exact Or.inr (Or.inl ⟨_, _, rfl⟩)
    · rw [gfifoReadBody] at hbody
      rw [hbody]
      exact Or.inr (Or.inr ⟨n, dev', rfl, hdone⟩)

/-- What a stay of `gfifo_write` inside the mutex can do. -/
theorem gfifoWrite_cases (gfifoSize : Nat) (dev : GfifoDev) (buf : Nat → Byte)
    (req : UserReq) :
    gfifoWrite gfifoSize dev buf req = (.sleep, dev) ∨
    (∃ err dev', gfifoWrite gfifoSize dev buf req = (.leave (.error err) [], dev') ∧
      Undisturbed dev dev') ∨
    (∃ n dev', gfifoWrite gfifoSize dev buf req = (.leave (.ok n) [], dev') ∧
      WriteDone gfifoSize dev buf req n dev') := by
  unfold gfifoWrite
  by_cases hfull : dev.curLen = gfifoSize
  · rw [if_pos hfull]
    cases req.nonblock with
    | true => exact Or.inr (Or.inl ⟨_, _, rfl, .refl dev⟩)
    | false => exact Or.inl rfl
  · rw [if_neg hfull]
    rcases gfifoWriteBody_spec gfifoSize dev buf req with
      ⟨dev', hbody, hkeep⟩ | ⟨n, dev', hbody, hdone⟩
    · rw [hbody]
      exact Or.inr (Or.inl ⟨_, dev', rfl, hkeep⟩)
    · rw [hbody]
      exact Or.inr (Or.inr ⟨n, dev', rfl, hdone⟩)

/-- The shift never leaves the array. -/
theorem gfifoReadBody_in_bounds {gfifoSize : Nat} {dev : GfifoDev}
    (hlen : dev.curLen ≤ gfifoSize) (req : UserReq) {x : Nat} (hx : gfifoSize ≤ x) :
    (gfifoReadBody dev req).2.2.mem x = dev.mem x := by
  unfold gfifoReadBody gfifoReadBodyWith
  simp only []
  split
  · rfl
  · show copyAsc dev.mem 0 _ _ x = _
    rw [copyAsc_eq_blit dev.mem (Nat.zero_le _)]
    refine blit_frame _ _ _ fun i hi => ?_
    omega

/-- The append never leaves the array: no byte from `GFIFO_SIZE` on changes, not
even by the zero fill behind a fault. -/
theorem gfifoWriteBody_in_bounds {gfifoSize : Nat} {dev : GfifoDev}
    (hlen : dev.curLen ≤ gfifoSize) (buf : Nat → Byte) (req : UserReq) {x : Nat}
    (hx : gfifoSize ≤ x) :
    (gfifoWriteBody gfifoSize dev buf req).2.mem x = dev.mem x := by
  have hclamp := clampCount_eq_min req (gfifoSize - dev.curLen)
  unfold gfifoWriteBody
  rw [hclamp]
  simp only []
  split <;> exact copyFromUser_above _ _ _ (by omega)

end LinuxDeviceDriver.Gfifo
