import LinuxDeviceDriver.Gfifo.Device
import LinuxDeviceDriver.Gmem.Device

/-!
# Absolute seeks of gmem and gfifo

`gmem_llseek` and `gfifo_llseek` are the same function with another size. An absolute seek
compares and stores `(unsigned int)offset`, a relative one works with the 64 bits of `loff_t`.
`absolute_seek_exact_iff` says for which offsets the difference cannot be seen.
-/

namespace LinuxDeviceDriver

/-- `gfifo_llseek`, the same in all variants. -/
def Gfifo.gfifoLlseek (gfifoSize : Nat) : Int → Int → Int → Int × Int := deviceLlseek gfifoSize

namespace Seek

/-- The drivers with these seeks, by the size of their devices. -/
inductive Driver
  /-- gmem, gmem_n, gmem_mutex -/
  | gmem
  /-- gfifo -/
  | gfifo
  /-- gfifo_nonblock, gfifo_async, gfifo_platform, gfifo_misc, gfifo_misc_n -/
  | gfifoSmall
deriving DecidableEq, Repr

/-- `GMEM_SIZE`, `GFIFO_SIZE` -/
def Driver.size : Driver → Nat
  | gmem => Gmem.gmemSize
  | gfifo => 0x1000
  | gfifoSmall => 0x100

def Driver.llseek : Driver → Int → Int → Int → Int × Int
  | gmem => Gmem.gmemLlseek
  | gfifo => Gfifo.gfifoLlseek 0x1000
  | gfifoSmall => Gfifo.gfifoLlseek 0x100

theorem Driver.llseek_eq (d : Driver) : d.llseek = deviceLlseek d.size := by
  cases d <;> rfl

theorem Driver.size_lt (d : Driver) : d.size < 2 ^ 32 := by
  cases d <;> decide

/-- What a seek to `target` is for: go there when it is a position of the device. -/
def seekTo (size : Nat) (fPos target : Int) : Int × Int :=
  if 0 ≤ target ∧ target ≤ size then (target, target) else (Errno.einval.neg, fPos)

/-! ## The two ways to seek -/

/-- A relative seek goes where it should, whatever the position is. -/
theorem deviceLlseek_relative (size : Nat) (fPos : Int) {target : Int} (hlo : -2 ^ 63 ≤ target)
    (hhi : target < 2 ^ 63) :
    deviceLlseek size fPos (target - fPos) 1 = seekTo size fPos target := by
  have hsum : toInt64 (fPos + (target - fPos)) = target := by
    rw [add_sub_cancel, toInt64_of_range hlo hhi]
  unfold deviceLlseek seekTo
  rw [if_neg (by decide), if_pos rfl, hsum]
  by_cases hbig : target > size
  · rw [if_pos hbig, if_neg (by omega)]
  by_cases hneg : target < 0
  · rw [if_neg hbig, if_pos hneg, if_neg (by omega)]
  · rw [if_neg hbig, if_neg hneg, if_pos (by omega)]

/-- An absolute seek goes to the lower half of its offset. -/
theorem deviceLlseek_absolute (size : Nat) (fPos : Int) {offset : Int} (h : 0 ≤ offset) :
    deviceLlseek size fPos offset 0 = seekTo size fPos (offset % 2 ^ 32) := by
  have hlow : (toUInt32 offset.toNat : Int) = offset % 2 ^ 32 := by
    unfold toUInt32
    omega
  unfold deviceLlseek seekTo
  rw [if_pos rfl, if_neg (by omega), ← hlow]
  by_cases hbig : toUInt32 offset.toNat > size
  · rw [if_pos hbig, if_neg (by omega)]
  · rw [if_neg hbig, if_pos (by omega)]

theorem deviceLlseek_negative (size : Nat) (fPos : Int) {offset : Int} (h : offset < 0) :
    deviceLlseek size fPos offset 0 = seekTo size fPos offset := by
  unfold deviceLlseek seekTo
  rw [if_pos rfl, if_pos h, if_neg (by omega)]

/-- The lower half of the offset is a position of the device, the offset is not. -/
def Truncates (size : Nat) (offset : Int) : Prop := 2 ^ 32 ≤ offset ∧ offset % 2 ^ 32 ≤ size

theorem absolute_eq_seekTo_iff {size : Nat} (hsize : size < 2 ^ 32) (fPos offset : Int) :
    deviceLlseek size fPos offset 0 = seekTo size fPos offset ↔ ¬ Truncates size offset := by
  by_cases hneg : offset < 0
  · refine iff_of_true (deviceLlseek_negative size fPos hneg) fun h => ?_
    have := h.1
    omega
  rw [deviceLlseek_absolute size fPos (by omega)]
  unfold seekTo Truncates
  by_cases hwide : 2 ^ 32 ≤ offset
  · rw [if_neg (by omega : ¬ (0 ≤ offset ∧ offset ≤ (size : Int)))]
    by_cases hlow : offset % 2 ^ 32 ≤ size
    · rw [if_pos ⟨by omega, hlow⟩]
      refine iff_of_false (fun heq => ?_) (not_not_intro ⟨hwide, hlow⟩)
      have hret : offset % 2 ^ 32 = Errno.einval.neg := (Prod.mk.inj heq).1
      have := Errno.neg_lt_zero .einval
      omega
    · rw [if_neg fun hin => hlow hin.2]
      exact iff_of_true rfl fun h => hlow h.2
  · rw [Int.emod_eq_of_lt (by omega) (by omega)]
    exact iff_of_true rfl fun h => hwide h.1

/-! ## The drivers -/

/-- An absolute seek of the driver does what it is for, and so it agrees with the relative seek
over the same distance, when this is a `loff_t`. -/
def AbsoluteExact (d : Driver) (fPos offset : Int) : Prop :=
  d.llseek fPos offset 0 = seekTo d.size fPos offset ∧
    (-2 ^ 63 ≤ offset - fPos → offset - fPos < 2 ^ 63 →
      d.llseek fPos offset 0 = d.llseek fPos (offset - fPos) 1)

/-- **Absolute seeks are exact unless the offset is truncated into the device**: for each driver,
every position and every 64-bit offset. -/
theorem absolute_seek_exact_iff (d : Driver) (fPos : Int) {offset : Int} (hlo : -2 ^ 63 ≤ offset)
    (hhi : offset < 2 ^ 63) : AbsoluteExact d fPos offset ↔ ¬ Truncates d.size offset := by
  unfold AbsoluteExact
  rw [d.llseek_eq, deviceLlseek_relative d.size fPos hlo hhi,
    ← absolute_eq_seekTo_iff d.size_lt fPos offset]
  constructor
  · exact fun h => h.1
  · exact fun h => ⟨h, fun _ _ => h⟩

/-- To the end of the device, and to 2^32 + 0x1001, whose lower half lies behind it. -/
theorem absolute_seek_exact_end :
    AbsoluteExact .gmem 7 0x1000 ∧ AbsoluteExact .gfifo 0 (2 ^ 32 + 0x1001) := by
  constructor
  · exact (absolute_seek_exact_iff .gmem 7 (by decide) (by decide)).mpr fun h =>
      absurd h.1 (by decide)
  · exact (absolute_seek_exact_iff .gfifo 0 (by decide) (by decide)).mpr fun h =>
      absurd h.2 (by decide)

/-- A seek to 2^32 succeeds and goes to the beginning; the relative one is refused. -/
theorem absolute_seek_truncates :
    Driver.gmem.llseek 7 (2 ^ 32) 0 = (0, 0) ∧ Driver.gmem.llseek 7 (2 ^ 32 - 7) 1 = (-22, 7) ∧
      Driver.gfifo.llseek 7 (2 ^ 32) 0 = (0, 0) ∧
      Driver.gfifo.llseek 7 (2 ^ 32 - 7) 1 = (-22, 7) := by
  decide

end Seek

end LinuxDeviceDriver
