import LinuxDeviceDriver.Gmem.Device

/-!
# What a failed call leaves behind

A call that returns an error code ought to leave the devices and the files as they were. Reads,
`ioctl`s and seeks do. `gmem_write` copies straight into the memory of the device, and
`copy_from_user` fills what it could not fetch with zeros, so a write that faults has already
replaced the bytes it was meant for. `failed_call_no_effect_iff` says which failed calls cannot
be seen.
-/

namespace LinuxDeviceDriver.Gmem

open Lib

/-! ## The functions -/

section Functions

variable {arch : Arch} {mem : Memory} {buf : Nat → Byte} {size userOk : Nat} {ppos : Int}

theorem gmemRead_failed (h : (gmemRead arch mem size userOk ppos).1 < 0) :
    (gmemRead arch mem size userOk ppos).2.2 = ppos := by
  unfold gmemRead at h ⊢
  dsimp only at h ⊢
  split
  · rfl
  next hin =>
  rw [if_neg hin] at h
  split
  · rfl
  next hleft =>
  rw [if_neg hleft] at h
  exact absurd h (Int.not_lt.mpr (Int.natCast_nonneg _))

/-- The bytes that a write at index `p` is for. -/
def inWrite (size p i : Nat) : Prop := i < toUInt32 size ∧ p + i < gmemSize

/-- A write fails only by a fault inside of the device: the bytes in front of the fault have been
stored, and zeros behind them. -/
structure WriteFault (arch : Arch) (mem : Memory) (buf : Nat → Byte) (size userOk : Nat)
    (ppos : Int) (mem' : Memory) : Prop where
  fault : inWrite size (index arch ppos) userOk
  stored : mem' = blit mem (fun i => index arch ppos + i) (fun i => if i < userOk then buf i else 0)
    (available (toUInt32 size) (index arch ppos))

theorem inWrite_iff {p i : Nat} (h : p < gmemSize) :
    inWrite size p i ↔ i < available (toUInt32 size) p := by
  unfold inWrite available
  omega

theorem gmemWrite_failed (h : (gmemWrite arch mem buf size userOk ppos).1 < 0) :
    (gmemWrite arch mem buf size userOk ppos).2.2 = ppos ∧
      WriteFault arch mem buf size userOk ppos
        (gmemWrite arch mem buf size userOk ppos).2.1 := by
  unfold gmemWrite at h ⊢
  dsimp only at h ⊢
  split
  · next hend =>
    rw [if_pos hend] at h
    exact absurd h (Int.lt_irrefl 0)
  next hin =>
  rw [if_neg hin] at h
  split
  · next hleft =>
    have hfault := (copyFromUser_left _ _ _ _ _).mp hleft
    rw [transferCount_available] at hfault ⊢
    refine ⟨rfl, (inWrite_iff (by omega)).mpr hfault, ?_⟩
    refine blit_congr _ (fun _ _ => rfl) fun i _ => ?_
    rw [Nat.min_eq_left (Nat.le_of_lt hfault)]
  · next hleft =>
    rw [if_neg hleft] at h
    exact absurd h (Int.not_lt.mpr (Int.natCast_nonneg _))

theorem gmemIoctl_failed {cmd : Nat} (h : (gmemIoctl cmd mem).1 < 0) :
    (gmemIoctl cmd mem).2 = mem := by
  unfold gmemIoctl at h ⊢
  split
  · next hclear =>
    rw [if_pos hclear] at h
    exact absurd h (Int.lt_irrefl 0)
  · rfl

theorem gmemLlseek_failed {fPos offset orig : Int} (h : (gmemLlseek fPos offset orig).1 < 0) :
    (gmemLlseek fPos offset orig).2 = fPos := by
  unfold gmemLlseek deviceLlseek at h ⊢
  split
  · next habs =>
    rw [if_pos habs] at h
    split
    · rfl
    next hneg =>
    rw [if_neg hneg] at h
    split
    · rfl
    next hbig =>
    rw [if_neg hbig] at h
    exact absurd h (Int.not_lt.mpr (Int.natCast_nonneg _))
  next habs =>
  rw [if_neg habs] at h
  split
  · next hrel =>
    rw [if_pos hrel] at h
    split
    · rfl
    next hbig =>
    rw [if_neg hbig] at h
    split
    · rfl
    next hneg =>
    rw [if_neg hneg] at h
    exact absurd h hneg
  · rfl

end Functions

/-! ## The calls -/

section Calls

variable {D F : Type} {arch : Arch} {s : System D F} {f : F} {file : File D}

/-- A write whose user memory ends inside of the bytes it is for, and some of these bytes differ
from what user memory gave before it ended, followed by zeros. -/
def Spoils (arch : Arch) (s : System D F) : Call D F → Prop
  | .write f buf size userOk =>
    ∃ file, s.files f = some file ∧
      inWrite size (index arch file.fPos) userOk ∧
      ∃ i, inWrite size (index arch file.fPos) i ∧
        s.mem file.privateData (index arch file.fPos + i) ≠ if i < userOk then buf i else 0
  | .openFile _ _ => False
  | .release _ => False
  | .read _ _ _ => False
  | .ioctl _ _ => False
  | .llseek _ _ _ => False

theorem setFile_same [DecidableEq F] (h : s.files f = some file) : s.setFile f (some file) = s := by
  unfold System.setFile
  rw [← h, Function.update_eq_self]

theorem setMem_eq_iff [DecidableEq D] (d : D) (mem : Memory) :
    s.setMem d mem = s ↔ mem = s.mem d := by
  constructor
  · intro heq
    have hd : Function.update s.mem d mem d = s.mem d := congrFun (congrArg System.mem heq) d
    rwa [Function.update_self] at hd
  · rintro rfl
    unfold System.setMem
    rw [Function.update_eq_self]

theorem withFile_closed (h : s.files f = none) (call : File D → Answer × System D F) :
    s.withFile f call = (.badFile, s) := by
  unfold System.withFile
  rw [h]

theorem withFile_open (h : s.files f = some file) (call : File D → Answer × System D F) :
    s.withFile f call = call file := by
  unfold System.withFile
  rw [h]

/-- A call on a closed file fails and changes nothing, so only the open file is left to look at. -/
theorem withFile_failed {call : File D → Answer × System D F}
    (hcall : ∀ file, s.files f = some file → (call file).1.ret < 0 → (call file).2 = s)
    (h : (s.withFile f call).1.ret < 0) : (s.withFile f call).2 = s := by
  cases hopen : s.files f with
  | none => rw [withFile_closed hopen]
  | some file =>
    rw [withFile_open hopen] at h ⊢
    exact hcall file hopen h

variable [DecidableEq D] [DecidableEq F]

/-- A failed write: the file is the same, and so is the memory when it held the bytes already. -/
theorem failed_write_iff {buf : Nat → Byte} {size userOk : Nat} (hopen : s.files f = some file)
    (h : (s.serve arch (.write f buf size userOk)).1.ret < 0) :
    (s.serve arch (.write f buf size userOk)).2 = s ↔
      ¬ Spoils arch s (.write f buf size userOk) := by
  simp only [System.serve, withFile_open hopen] at h ⊢
  obtain ⟨hpos, hfault⟩ := gmemWrite_failed h
  have hin : index arch file.fPos < gmemSize := by
    have := hfault.fault.2
    omega
  have hfile : (s.setMem file.privateData
      (gmemWrite arch (s.mem file.privateData) buf size userOk file.fPos).2.1).files f =
      some file := hopen
  rw [hpos, setFile_same hfile, setMem_eq_iff, hfault.stored, blit_adjacent_eq_iff]
  constructor
  · rintro hsame ⟨file', hopen', -, i, hi, hdiff⟩
    rw [hopen] at hopen'
    cases hopen'
    exact hdiff (hsame i ((inWrite_iff hin).mp hi))
  · intro hnot i hi
    by_contra hdiff
    exact hnot ⟨file, hopen, hfault.fault, i, (inWrite_iff hin).mpr hi, hdiff⟩

/-- **A failed call has no effect unless it is a write that spoils its range**: for every state
and every call that returns a negative value, all memories and all files are as before exactly
when the call is not a faulting write over bytes other than those it leaves there. -/
theorem failed_call_no_effect_iff (call : Call D F) (h : (s.serve arch call).1.ret < 0) :
    (s.serve arch call).2 = s ↔ ¬ Spoils arch s call := by
  cases call with
  | openFile f d => exact absurd h (Int.lt_irrefl 0)
  | release f =>
    refine iff_of_true (withFile_failed (fun file _ hret => ?_) h) not_false
    exact absurd hret (Int.lt_irrefl 0)
  | read f size userOk =>
    refine iff_of_true (withFile_failed (fun file hopen hret => ?_) h) not_false
    dsimp only at hret ⊢
    rw [gmemRead_failed hret]
    exact setFile_same hopen
  | write f buf size userOk =>
    cases hopen : s.files f with
    | none =>
      refine iff_of_true (congrArg Prod.snd (withFile_closed hopen _)) ?_
      rintro ⟨file, hopen', -⟩
      rw [hopen] at hopen'
      cases hopen'
    | some file => exact failed_write_iff hopen h
  | ioctl f cmd =>
    refine iff_of_true (withFile_failed (fun file _ hret => ?_) h) not_false
    dsimp only at hret ⊢
    rw [gmemIoctl_failed hret]
    exact (setMem_eq_iff _ _).mpr rfl
  | llseek f offset orig =>
    refine iff_of_true (withFile_failed (fun file hopen hret => ?_) h) not_false
    dsimp only at hret ⊢
    rw [gmemLlseek_failed hret]
    exact setFile_same hopen

end Calls

theorem wide_64 : 32 ≤ 64 := by decide

def arch64 : Arch := ⟨64, wide_64⟩

/-- The one device of `gmem.c` with one file, after a sequence of calls. -/
def afterCalls (calls : List (Call Unit Unit)) : System Unit Unit :=
  calls.foldl (fun s call => (s.serve arch64 call).2) .fresh

/-- A byte has been stored, and the file stands at the beginning again. -/
def sevenStored : System Unit Unit :=
  afterCalls [.openFile () (), .write () (fun _ => 7) 1 1, .llseek () 0 0]

/-- A write of 7 and a zero that faults behind the 7 is not seen. -/
theorem failed_call_no_effect_same_bytes :
    (sevenStored.serve arch64 (.write () (fun _ => 7) 2 1)).1.ret = -14 ∧
      (sevenStored.serve arch64 (.write () (fun _ => 7) 2 1)).2 = sevenStored := by
  refine ⟨rfl, (failed_call_no_effect_iff _ (by decide)).mpr ?_⟩
  rintro ⟨file, hopen, -, i, ⟨hi, -⟩, hdiff⟩
  obtain rfl : ⟨(), 0⟩ = file := Option.some.inj hopen
  have hi' : i < 2 := hi
  obtain rfl | rfl : i = 0 ∨ i = 1 := by omega
  · exact hdiff (by decide)
  · exact hdiff (by decide)

/-- A write of one byte from a bad address returns -EFAULT, and the stored byte is gone. -/
theorem failed_write_clears_byte :
    (sevenStored.serve arch64 (.write () (fun _ => 9) 1 0)).1.ret = -14 ∧
      sevenStored.mem () 0 = 7 ∧
      (sevenStored.serve arch64 (.write () (fun _ => 9) 1 0)).2.mem () 0 = 0 :=
  ⟨rfl, rfl, rfl⟩

end LinuxDeviceDriver.Gmem
