import LinuxDeviceDriver.Kernel

/-!
# The gmem device: `gmem_read`, `gmem_write`, `gmem_ioctl`, `gmem_llseek`

A piece of memory of `GMEM_SIZE` bytes behind a character device. `gmem.c` has one device,
`gmem_n.c` has several; the functions are the same, and `gmem_mutex.c` has them with a lock.

A function takes what it reads of the device and of the file, and returns what it changes. An
index from `GMEM_SIZE` on into the memory would be what lies behind the array. The position in
a file is a `loff_t`; `unsigned long p = *ppos` cuts it to the width of a `long`.
-/

namespace LinuxDeviceDriver.Gmem

open Lib

/-- The width of `unsigned long`, which is at least that of an `int`. -/
structure Arch where
  longBits : Nat
  wide : 32 ≤ longBits

/-- `GMEM_SIZE` -/
def gmemSize : Nat := 0x1000

/-- `MEM_CLEAR` -/
def memClearCmd : Nat := 0x1

/-- `mem[GMEM_SIZE]` -/
abbrev Memory := Nat → Byte

section Functions

variable (arch : Arch)

/-- `unsigned long p = *ppos` -/
def index (ppos : Int) : Nat := (ppos % 2 ^ arch.longBits).toNat

/-- `unsigned int count = size`, cut to what is left behind `p`. -/
def transferCount (size p : Nat) : Nat :=
  if toUInt32 size > gmemSize - p then gmemSize - p else toUInt32 size

/-- `gmem_read`: the return value, what has reached the user, and `*ppos`. -/
def gmemRead (mem : Memory) (size userOk : Nat) (ppos : Int) : Int × List Byte × Int :=
  let p := index arch ppos
  if p ≥ gmemSize then (0, [], ppos)
  else
    let count := transferCount size p
    let (out, left) := copyToUser (fun i => mem (p + i)) count userOk
    if left ≠ 0 then (Errno.efault.neg, out, ppos)
    else (count, out, toInt64 (ppos + count))

/-- `gmem_write`: the return value, the memory and `*ppos`. -/
def gmemWrite (mem : Memory) (buf : Nat → Byte) (size userOk : Nat) (ppos : Int) :
    Int × Memory × Int :=
  let p := index arch ppos
  if p ≥ gmemSize then (0, mem, ppos)
  else
    let count := transferCount size p
    let (mem, left) := copyFromUser mem p buf count userOk
    if left ≠ 0 then (Errno.efault.neg, mem, ppos)
    else (count, mem, toInt64 (ppos + count))

/-- `memset(dev->mem, 0, GMEM_SIZE)` -/
def gmemClear (mem : Memory) : Memory := blit mem id (fun _ => 0) gmemSize

def gmemIoctl (cmd : Nat) (mem : Memory) : Int × Memory :=
  if cmd = memClearCmd then (0, gmemClear mem) else (Errno.einval.neg, mem)

/-- `gmem_llseek`: the return value and `f_pos`. -/
def gmemLlseek : Int → Int → Int → Int × Int := deviceLlseek gmemSize

end Functions

/-! ## Devices and open files -/

/-- `struct file`: the device that `gmem_open` has found, and `f_pos`. -/
structure File (D : Type) where
  privateData : D
  fPos : Int

structure System (D F : Type) where
  mem : D → Memory
  files : F → Option (File D)

/-- What user space does, through the VFS. A file is opened on the device of an inode. -/
inductive Call (D F : Type)
  | openFile (f : F) (d : D)
  | release (f : F)
  | read (f : F) (size userOk : Nat)
  | write (f : F) (buf : Nat → Byte) (size userOk : Nat)
  | ioctl (f : F) (cmd : Nat)
  | llseek (f : F) (offset orig : Int)

/-- The return value, and what has reached the user buffer. -/
structure Answer where
  ret : Int
  data : List Byte
deriving DecidableEq

/-- The VFS answers itself when the file is not open. -/
def Answer.badFile : Answer := ⟨-9, []⟩

section Calls

variable {D F : Type} [DecidableEq D] [DecidableEq F]

def System.setFile (s : System D F) (f : F) (file : Option (File D)) : System D F :=
  { s with files := Function.update s.files f file }

def System.setMem (s : System D F) (d : D) (mem : Memory) : System D F :=
  { s with mem := Function.update s.mem d mem }

/-- A call through an open file. -/
def System.withFile (s : System D F) (f : F) (call : File D → Answer × System D F) :
    Answer × System D F :=
  match s.files f with
  | none => (.badFile, s)
  | some file => call file

def System.serve (arch : Arch) (s : System D F) : Call D F → Answer × System D F
  | .openFile f d => (⟨0, []⟩, s.setFile f (some ⟨d, 0⟩))
  | .release f => s.withFile f fun _ => (⟨0, []⟩, s.setFile f none)
  | .read f size userOk =>
    s.withFile f fun file =>
      let (ret, data, fPos) := gmemRead arch (s.mem file.privateData) size userOk file.fPos
      (⟨ret, data⟩, s.setFile f (some { file with fPos := fPos }))
  | .write f buf size userOk =>
    s.withFile f fun file =>
      let (ret, mem, fPos) := gmemWrite arch (s.mem file.privateData) buf size userOk file.fPos
      (⟨ret, []⟩, (s.setMem file.privateData mem).setFile f (some { file with fPos := fPos }))
  | .ioctl f cmd =>
    s.withFile f fun file =>
      let (ret, mem) := gmemIoctl cmd (s.mem file.privateData)
      (⟨ret, []⟩, s.setMem file.privateData mem)
  | .llseek f offset orig =>
    s.withFile f fun file =>
      let (ret, fPos) := gmemLlseek file.fPos offset orig
      (⟨ret, []⟩, s.setFile f (some { file with fPos := fPos }))

/-- The module has been loaded. -/
def System.fresh : System D F := ⟨fun _ _ => 0, fun _ => none⟩

end Calls

/-! ## Specifications -/

section Specifications

variable {pos : Nat}

/-- A position in the file is its own index. -/
theorem index_eq (arch : Arch) (h : pos ≤ gmemSize) : index arch pos = pos := by
  have hpow : (2 ^ 32 : Int) ≤ 2 ^ arch.longBits := by
    exact_mod_cast Nat.pow_le_pow_right (by decide) arch.wide
  have hsize : gmemSize < 2 ^ 32 := by decide
  unfold index
  rw [Int.emod_eq_of_lt (by omega) (by omega)]
  rfl

/-- How much is transferred at a position of the file. -/
def available (size pos : Nat) : Nat := min size (gmemSize - pos)

theorem transferCount_available (size p : Nat) :
    transferCount size p = available (toUInt32 size) p := by
  unfold transferCount available
  split <;> omega

theorem transferCount_eq {size : Nat} (h : size < 2 ^ 31) (p : Nat) :
    transferCount size p = available size p := by
  rw [transferCount_available, toUInt32_of_lt (by omega)]

theorem toInt64_pos {n : Nat} (h : n ≤ gmemSize) : toInt64 n = n := by
  have hsize : gmemSize < 2 ^ 32 := by decide
  exact toInt64_of_range (by omega) (by omega)

theorem available_end (size : Nat) : available size gmemSize = 0 := by
  unfold available
  omega

/-- A user range of the size takes all that is transferred. -/
theorem min_available {size userOk : Nat} (huser : size ≤ userOk) :
    min userOk (available size pos) = available size pos := by
  unfold available
  omega

/-- The position stays in the file. -/
theorem toInt64_available (size : Nat) (hpos : pos ≤ gmemSize) :
    toInt64 ((pos : Int) + available size pos) = ((pos + available size pos : Nat) : Int) := by
  refine toInt64_pos ?_
  unfold available
  omega

/-- A read without a fault: as much as is left, at most the size. -/
theorem gmemRead_eq (arch : Arch) (mem : Memory) {size userOk : Nat} (hsize : size < 2 ^ 31)
    (huser : size ≤ userOk) (hpos : pos ≤ gmemSize) :
    gmemRead arch mem size userOk pos =
      ((available size pos : Int), slice mem pos (available size pos),
        ((pos + available size pos : Nat) : Int)) := by
  unfold gmemRead
  rw [index_eq arch hpos]
  by_cases hend : pos = gmemSize
  · rw [if_pos (by omega), hend, available_end]
    rfl
  · have hout : slice (fun i => mem (pos + i)) 0 (available size pos) =
        slice mem pos (available size pos) := slice_congr fun i _ => by rw [Nat.zero_add]
    rw [if_neg (by omega), transferCount_eq hsize]
    simp only [copyToUser, min_available huser, Nat.sub_self, hout, toInt64_available size hpos,
      ne_eq, not_true_eq_false, if_false]

/-- A write without a fault stores as much as is left, at most the size. -/
theorem gmemWrite_eq (arch : Arch) (mem : Memory) (buf : Nat → Byte) {size userOk : Nat}
    (hsize : size < 2 ^ 31) (huser : size ≤ userOk) (hpos : pos ≤ gmemSize) :
    gmemWrite arch mem buf size userOk pos =
      ((available size pos : Int), blit mem (fun i => pos + i) buf (available size pos),
        ((pos + available size pos : Nat) : Int)) := by
  unfold gmemWrite
  rw [index_eq arch hpos]
  by_cases hend : pos = gmemSize
  · rw [if_pos (by omega), hend, available_end]
    rfl
  · have hmem : blit mem (fun i => pos + i) (fun i => if i < available size pos then buf i else 0)
        (available size pos) = blit mem (fun i => pos + i) buf (available size pos) :=
      blit_congr mem (fun _ _ => rfl) fun i hi => if_pos hi
    rw [if_neg (by omega), transferCount_eq hsize]
    simp only [copyFromUser, min_available huser, Nat.sub_self, hmem, toInt64_available size hpos,
      ne_eq, not_true_eq_false, if_false]

/-- A relative seek by any 64-bit offset: the sum does not wrap back into the file. -/
theorem gmemLlseek_relative {offset : Int} (hlo : -2 ^ 63 ≤ offset) (hhi : offset < 2 ^ 63)
    (hpos : pos ≤ gmemSize) :
    gmemLlseek pos offset 1 =
      if 0 ≤ pos + offset ∧ pos + offset ≤ gmemSize then
        ((pos : Int) + offset, (pos : Int) + offset)
      else (Errno.einval.neg, (pos : Int)) := by
  have hsize : gmemSize < 2 ^ 32 := by decide
  unfold gmemLlseek deviceLlseek
  rw [if_neg (by decide), if_pos rfl]
  by_cases hin : (pos : Int) + offset < 2 ^ 63
  · rw [toInt64_of_range (by omega) hin]
    by_cases hbig : (pos : Int) + offset > gmemSize
    · rw [if_pos hbig, if_neg (by omega)]
    by_cases hneg : (pos : Int) + offset < 0
    · rw [if_neg hbig, if_pos hneg, if_neg (by omega)]
    · rw [if_neg hbig, if_neg hneg, if_pos (by omega)]
  · have hwrap : toInt64 ((pos : Int) + offset) < 0 := by
      unfold toInt64
      rw [Int.bmod_def]
      split <;> omega
    rw [if_neg (by omega), if_pos hwrap, if_neg (by omega)]

end Specifications

end LinuxDeviceDriver.Gmem
