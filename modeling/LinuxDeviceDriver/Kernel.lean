import Mathlib.Algebra.Order.Ring.Int
import LinuxDeviceDriver.Lib.Blit

/-!
# What the drivers use of C and of the kernel

- `Byte`, the `unsigned char` all device memories are made of.
- `Errno`: the error codes the entry points return, with `Errno.neg` for the
  negative `int` a C function hands back.
- `toInt32`, `toUInt32`, `toInt64`: conversion to `int`, to `unsigned int` and to `loff_t`.
- `copyToUser`, `copyFromUser`: the user copies. A user range is described by
  how many of its bytes can be accessed before the copy faults; both return the
  number of bytes *not* copied, and `copy_from_user` fills what it could not
  fetch with zeros, as the kernel documents.
- `deviceLlseek`: the `llseek` that gmem and gfifo share.
- `simpleStrtol`, `decText`, `hexText`: reading and printing numbers in sysfs attributes.
-/

namespace LinuxDeviceDriver

open Lib

abbrev Byte := UInt8

/-- Error codes returned by the drivers of this repository. -/
inductive Errno
  | eio
  | eagain
  | enomem
  | efault
  | ebusy
  | enodev
  | einval
  | erestartsys
deriving DecidableEq, Repr

/-- The value of the `E…` macro. -/
def Errno.code : Errno → Int
  | eio => 5
  | eagain => 11
  | enomem => 12
  | efault => 14
  | ebusy => 16
  | enodev => 19
  | einval => 22
  | erestartsys => 512

/-- `-E…`, the way an `int` function reports the error. -/
def Errno.neg (e : Errno) : Int := -e.code

theorem Errno.neg_lt_zero (e : Errno) : e.neg < 0 := by
  cases e <;> decide

/-- Conversion to `int`. -/
def toInt32 (x : Int) : Int := x.bmod (2 ^ 32)

/-- Conversion of a non-negative value to `unsigned int`. -/
def toUInt32 (n : Nat) : Nat := n % 2 ^ 32

theorem toInt32_of_range {x : Int} (hlo : -2 ^ 31 ≤ x) (hhi : x < 2 ^ 31) :
    toInt32 x = x := by
  unfold toInt32
  rw [Int.bmod_def]
  split <;> omega

/-- Conversion to `loff_t`. -/
def toInt64 (x : Int) : Int := x.bmod (2 ^ 64)

theorem toInt64_of_range {x : Int} (hlo : -2 ^ 63 ≤ x) (hhi : x < 2 ^ 63) :
    toInt64 x = x := by
  unfold toInt64
  rw [Int.bmod_def]
  split <;> omega

theorem toInt32_lt (x : Int) : toInt32 x < 2 ^ 31 := by
  unfold toInt32
  rw [Int.bmod_def]
  split <;> omega

theorem toInt32_ge (x : Int) : -2 ^ 31 ≤ toInt32 x := by
  unfold toInt32
  rw [Int.bmod_def]
  split <;> omega

/-- Sums of `int`s may be converted at the end. -/
theorem toInt32_add (x y : Int) : toInt32 (toInt32 x + y) = toInt32 (x + y) :=
  Int.bmod_add_bmod

theorem toInt32_sub (x y : Int) : toInt32 (toInt32 x - y) = toInt32 (x - y) :=
  Int.bmod_sub_bmod

theorem toUInt32_of_lt {n : Nat} (h : n < 2 ^ 32) : toUInt32 n = n :=
  Nat.mod_eq_of_lt h

/-- `copy_to_user(buf, mem, count)`: the bytes that reached the user buffer and
the number of bytes that did not. -/
def copyToUser (mem : Nat → Byte) (count userOk : Nat) : List Byte × Nat :=
  (slice mem 0 (min userOk count), count - min userOk count)

/-- `copy_from_user(mem + dst, buf, count)`: the destination memory (zero-filled
behind a fault) and the number of bytes that were not copied. -/
def copyFromUser (mem : Nat → Byte) (dst : Nat) (buf : Nat → Byte) (count userOk : Nat) :
    (Nat → Byte) × Nat :=
  let done := min userOk count
  (blit mem (fun i => dst + i) (fun i => if i < done then buf i else 0) count, count - done)

/-- A copy that left nothing behind delivered every byte. -/
theorem copyToUser_complete {mem : Nat → Byte} {count userOk : Nat}
    (h : (copyToUser mem count userOk).2 = 0) :
    (copyToUser mem count userOk).1 = slice mem 0 count := by
  have hle : count ≤ userOk := by
    simp only [copyToUser] at h
    omega
  simp only [copyToUser, Nat.min_eq_right hle]

/-- A copy from user memory faults when the range ends early. -/
theorem copyFromUser_left (mem : Nat → Byte) (dst : Nat) (buf : Nat → Byte) (count userOk : Nat) :
    (copyFromUser mem dst buf count userOk).2 ≠ 0 ↔ userOk < count := by
  show count - min userOk count ≠ 0 ↔ userOk < count
  omega

/-- A copy from user memory touches nothing below its destination… -/
theorem copyFromUser_below (mem : Nat → Byte) {dst : Nat} (buf : Nat → Byte)
    (count userOk : Nat) {x : Nat} (h : x < dst) :
    (copyFromUser mem dst buf count userOk).1 x = mem x := by
  refine blit_frame _ _ _ fun i _ => ?_
  omega

/-- …and nothing above the requested range, whether it faults or not. -/
theorem copyFromUser_above (mem : Nat → Byte) {dst : Nat} (buf : Nat → Byte)
    {count : Nat} (userOk : Nat) {x : Nat} (h : dst + count ≤ x) :
    (copyFromUser mem dst buf count userOk).1 x = mem x := by
  refine blit_frame _ _ _ fun i hi => ?_
  omega

/-- A copy that left nothing behind stored the user's bytes. -/
theorem copyFromUser_complete {mem : Nat → Byte} {dst : Nat} {buf : Nat → Byte}
    {count userOk i : Nat} (h : (copyFromUser mem dst buf count userOk).2 = 0)
    (hi : i < count) : (copyFromUser mem dst buf count userOk).1 (dst + i) = buf i := by
  have hle : count ≤ userOk := by
    simp only [copyFromUser] at h
    omega
  simp only [copyFromUser, Nat.min_eq_right hle]
  rw [blit_lane mem (fun i => dst + i) _ (fun j _ hij => by omega) hi, if_pos hi]

/-- `…_llseek` of a device of `size` bytes: the return value and `f_pos`. -/
def deviceLlseek (size : Nat) (fPos offset orig : Int) : Int × Int :=
  if orig = 0 then
    if offset < 0 then (Errno.einval.neg, fPos)
    else if toUInt32 offset.toNat > size then (Errno.einval.neg, fPos)
    else (toUInt32 offset.toNat, toUInt32 offset.toNat)
  else if orig = 1 then
    if toInt64 (fPos + offset) > size then (Errno.einval.neg, fPos)
    else if toInt64 (fPos + offset) < 0 then (Errno.einval.neg, fPos)
    else (toInt64 (fPos + offset), toInt64 (fPos + offset))
  else (Errno.einval.neg, fPos)

/-! ## Strings -/

theorem decide_ne_of_notMem {s : List Byte} {c : Byte} (h : c ∉ s) :
    ∀ b ∈ s, decide (b ≠ c) = true := by
  intro b hb
  exact decide_eq_true fun hc => h (hc ▸ hb)

/-- A scan for `c` over a text without it stops at the first `c` behind the text. -/
theorem takeWhile_append_stop {s : List Byte} {c : Byte} (h : c ∉ s) (tail : List Byte) :
    (s ++ c :: tail).takeWhile (· ≠ c) = s := by
  rw [List.takeWhile_append_of_pos (decide_ne_of_notMem h), List.takeWhile_cons_of_neg (by simp),
    List.append_nil]

/-- The string in an array of `size` bytes. -/
def arrayString (array : Nat → Byte) (size : Nat) : List Byte :=
  (slice array 0 size).takeWhile (· ≠ 0)

theorem arrayString_eq {array : Nat → Byte} {size : Nat} {s : List Byte}
    (htext : slice array 0 s.length = s) (hnul : array s.length = 0) (hlt : s.length < size)
    (hzero : 0 ∉ s) : arrayString array size = s := by
  have hsize : size = s.length + (1 + (size - s.length - 1)) := by omega
  have hstop : slice array s.length 1 = [0] := congrArg (fun c => [c]) hnul
  unfold arrayString
  rw [hsize, slice_add, slice_add, htext, Nat.zero_add, hstop, List.singleton_append]
  exact takeWhile_append_stop hzero _

/-! ## Numbers as text -/

/-- The value of a digit of either case. `_tolower` sets bit 5. -/
def digitValue (c : Byte) : Option Nat :=
  let lc := c ||| 0x20
  if 48 ≤ c ∧ c ≤ 57 then some (c.toNat - 48)
  else if 97 ≤ lc ∧ lc ≤ 102 then some (lc.toNat - 97 + 10)
  else none

/-- `_parse_integer_fixup_radix` for a given base: base 16 may be announced by `0x`. -/
def skipRadix (base : Nat) : List Byte → List Byte
  | 48 :: x :: buf => if base = 16 ∧ x ||| 0x20 = 120 then buf else 48 :: x :: buf
  | buf => buf

/-- `_parse_integer`: digits up to the first character that is none in this base,
accumulated in 64 bits. -/
def parseInteger (base : Nat) : List Byte → Nat → Nat
  | [], res => res
  | c :: buf, res =>
    match digitValue c with
    | none => res
    | some val =>
      if val ≥ base then res else parseInteger base buf ((res * base + val) % 2 ^ 64)

/-- `simple_strtoul(buf, NULL, base)` where `long` has `longBits` bits. The list is
the text in front of the terminator. -/
def simpleStrtoul (longBits base : Nat) (buf : List Byte) : Nat :=
  parseInteger base (skipRadix base buf) 0 % 2 ^ longBits

def simpleStrtol (longBits base : Nat) : List Byte → Int
  | 45 :: buf => (-(simpleStrtoul longBits base buf : Int)).bmod (2 ^ longBits)
  | buf => (simpleStrtoul longBits base buf : Int).bmod (2 ^ longBits)

/-- The base `_parse_integer_fixup_radix` finds out when none is given. -/
def autoBase : List Byte → Nat
  | 48 :: x :: c :: _ => if x ||| 0x20 = 120 ∧ (digitValue c).isSome then 16 else 8
  | 48 :: _ => 8
  | _ => 10

/-- `simple_strtol(buf, NULL, 0)`. -/
def simpleStrtolAuto (longBits : Nat) : List Byte → Int
  | 45 :: buf => (-(simpleStrtoul longBits (autoBase buf) buf : Int)).bmod (2 ^ longBits)
  | buf => (simpleStrtoul longBits (autoBase buf) buf : Int).bmod (2 ^ longBits)

/-- The text `"%d\n"`. -/
def decText (n : Int) : List Byte :=
  (if n < 0 then [45] else []) ++
    (Nat.toDigits 10 n.natAbs).map (fun c => UInt8.ofNat c.toNat) ++ [10]

/-- The text `"0x%llx\n"`. -/
def hexText (n : Nat) : List Byte :=
  [48, 120] ++ (Nat.toDigits 16 n).map (fun c => UInt8.ofNat c.toNat) ++ [10]

end LinuxDeviceDriver
