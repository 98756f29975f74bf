import LinuxDeviceDriver.Gmem.Device
import LinuxDeviceDriver.Lib.Transition

/-!
# The gmem device with a lock: `gmem_mutex.c`

The functions of `Gmem.Device` around `dev->lock`. `mutex_lock` on a held lock does not return,
so a function gives `none` when its caller waits; between two calls nobody is left who could
release the lock, and the caller waits for ever.

`gmem_write` returns from a copy that faults without `mutex_unlock`. `lock_free_iff` says that
this is the only way the lock is left behind.
-/

namespace LinuxDeviceDriver.Gmem.Mutex

open Lib

/-- `struct gmem_dev` -/
structure GmemDev where
  mem : Memory
  locked : Bool

def GmemDev.mutexLock (dev : GmemDev) : Option GmemDev :=
  if dev.locked then none else some { dev with locked := true }

def GmemDev.mutexUnlock (dev : GmemDev) : GmemDev := { dev with locked := false }

section Functions

variable (arch : Arch)

def gmemIoctl (dev : GmemDev) (cmd : Nat) : Option (Int × GmemDev) :=
  if cmd = memClearCmd then
    dev.mutexLock.bind fun dev =>
      let dev := { dev with mem := gmemClear dev.mem }
      some (0, dev.mutexUnlock)
  else some (Errno.einval.neg, dev)

/-- `gmem_read`: the return value, what has reached the user, the device and `*ppos`. -/
def gmemRead (dev : GmemDev) (size userOk : Nat) (ppos : Int) :
    Option (Int × List Byte × GmemDev × Int) :=
  let p := index arch ppos
  if p ≥ gmemSize then some (0, [], dev, ppos)
  else
    let count := transferCount size p
    dev.mutexLock.bind fun dev =>
      let (out, left) := copyToUser (fun i => dev.mem (p + i)) count userOk
      if left ≠ 0 then some (Errno.efault.neg, out, dev.mutexUnlock, ppos)
      else some (count, out, dev.mutexUnlock, toInt64 (ppos + count))

/-- `gmem_write`: the return value, the device and `*ppos`. -/
def gmemWrite (dev : GmemDev) (buf : Nat → Byte) (size userOk : Nat) (ppos : Int) :
    Option (Int × GmemDev × Int) :=
  let p := index arch ppos
  if p ≥ gmemSize then some (0, dev, ppos)
  else
    let count := transferCount size p
    dev.mutexLock.bind fun dev =>
      let (mem, left) := copyFromUser dev.mem p buf count userOk
      let dev := { dev with mem := mem }
      -- `return -EFAULT` stands before `mutex_unlock`
      if left ≠ 0 then some (Errno.efault.neg, dev, ppos)
      else some (count, dev.mutexUnlock, toInt64 (ppos + count))

end Functions

/-- The device, and `f_pos` of the files that are open on it. -/
structure State (F : Type) where
  dev : GmemDev
  fPos : F → Int

inductive Call (F : Type)
  | read (f : F) (size userOk : Nat)
  | write (f : F) (buf : Nat → Byte) (size userOk : Nat)
  | ioctl (f : F) (cmd : Nat)
  | llseek (f : F) (offset orig : Int)

section Calls

variable {F : Type} [DecidableEq F]

def State.serve (arch : Arch) (s : State F) : Call F → Option (Answer × State F)
  | .read f size userOk =>
    (gmemRead arch s.dev size userOk (s.fPos f)).map fun (ret, data, dev, pos) =>
      (⟨ret, data⟩, ⟨dev, Function.update s.fPos f pos⟩)
  | .write f buf size userOk =>
    (gmemWrite arch s.dev buf size userOk (s.fPos f)).map fun (ret, dev, pos) =>
      (⟨ret, []⟩, ⟨dev, Function.update s.fPos f pos⟩)
  | .ioctl _ cmd =>
    (gmemIoctl s.dev cmd).map fun (ret, dev) => (⟨ret, []⟩, ⟨dev, s.fPos⟩)
  | .llseek f offset orig =>
    let (ret, pos) := gmemLlseek (s.fPos f) offset orig
    some (⟨ret, []⟩, ⟨s.dev, Function.update s.fPos f pos⟩)

/-- The state that a call leaves; a caller who waits leaves it as it is. -/
def State.next (arch : Arch) (s : State F) (call : Call F) : State F :=
  ((s.serve arch call).map Prod.snd).getD s

/-- The call returns, and the lock is free then. -/
def FreesLock (arch : Arch) (s : State F) (call : Call F) : Prop :=
  ∃ answer s', s.serve arch call = some (answer, s') ∧ s'.dev.locked = false

/-- The copy of a write faults: it starts inside the device, and user memory ends before its
size and before the end of the device. -/
def WriteFaults (arch : Arch) (s : State F) : Call F → Prop
  | .write f _ size userOk =>
    index arch (s.fPos f) < gmemSize ∧
      userOk < min (toUInt32 size) (gmemSize - index arch (s.fPos f))
  | .read _ _ _ => False
  | .ioctl _ _ => False
  | .llseek _ _ _ => False

end Calls

/-! ## What each function does with a free lock -/

section Exits

variable (arch : Arch) {dev : GmemDev} {size userOk : Nat} {ppos : Int}

theorem GmemDev.mutexLock_free (h : dev.locked = false) :
    dev.mutexLock = some { dev with locked := true } := by
  unfold mutexLock
  rw [h]
  rfl

theorem gmemIoctl_frees (h : dev.locked = false) (cmd : Nat) :
    ∃ ret dev', gmemIoctl dev cmd = some (ret, dev') ∧ dev'.locked = false := by
  unfold gmemIoctl
  split
  · rw [GmemDev.mutexLock_free h]
    exact ⟨_, _, rfl, rfl⟩
  · exact ⟨_, _, rfl, h⟩

theorem gmemRead_frees (h : dev.locked = false) :
    ∃ ret data dev' pos, gmemRead arch dev size userOk ppos = some (ret, data, dev', pos) ∧
      dev'.locked = false := by
  unfold gmemRead
  simp only [GmemDev.mutexLock_free h, Option.bind_some]
  split
  · exact ⟨_, _, _, _, rfl, h⟩
  split
  · exact ⟨_, _, _, _, rfl, rfl⟩
  · exact ⟨_, _, _, _, rfl, rfl⟩

/-- The write returns, with the lock when its copy has faulted. -/
theorem gmemWrite_exit (h : dev.locked = false) (buf : Nat → Byte) :
    ∃ ret dev' pos, gmemWrite arch dev buf size userOk ppos = some (ret, dev', pos) ∧
      (dev'.locked = false ↔
        ¬ (index arch ppos < gmemSize ∧
          userOk < min (toUInt32 size) (gmemSize - index arch ppos))) := by
  unfold gmemWrite
  simp only [GmemDev.mutexLock_free h, Option.bind_some]
  split
  · next hend => exact ⟨_, _, _, rfl, iff_of_true h fun hin => absurd hin.1 (Nat.not_lt.mpr hend)⟩
  next hin =>
  split
  · next hleft =>
    have hfault := (copyFromUser_left _ _ _ _ _).mp hleft
    rw [transferCount_available] at hfault
    exact ⟨_, _, _, rfl, iff_of_false Bool.noConfusion fun hno => hno ⟨by omega, hfault⟩⟩
  · next hleft =>
    have hdone := (copyFromUser_left _ _ _ _ _).not.mp hleft
    rw [transferCount_available] at hdone
    exact ⟨_, _, _, rfl, iff_of_true rfl fun hfault => hdone hfault.2⟩

end Exits

/-! ## Sequences of calls -/

section Sequences

variable {F : Type} [DecidableEq F] {arch : Arch} {s : State F}

theorem freesLock_served {call : Call F} {answer : Answer} {s' : State F}
    (h : s.serve arch call = some (answer, s')) :
    FreesLock arch s call ↔ s'.dev.locked = false := by
  constructor
  · rintro ⟨answer', s'', hserve, hfree⟩
    rw [h] at hserve
    cases hserve
    exact hfree
  · exact fun hfree => ⟨answer, s', h, hfree⟩

/-- On a free lock every call returns; the lock is free again unless a write has faulted. -/
theorem freesLock_iff (h : s.dev.locked = false) (call : Call F) :
    FreesLock arch s call ↔ ¬ WriteFaults arch s call := by
  cases call with
  | read f size userOk =>
    obtain ⟨ret, data, dev, pos, hread, hfree⟩ := gmemRead_frees arch h
    have hserve : s.serve arch (.read f size userOk) =
        some (⟨ret, data⟩, ⟨dev, Function.update s.fPos f pos⟩) := congrArg (Option.map _) hread
    exact (freesLock_served hserve).trans (iff_of_true hfree not_false)
  | write f buf size userOk =>
    obtain ⟨ret, dev, pos, hwrite, hfree⟩ := gmemWrite_exit arch h buf
    have hserve : s.serve arch (.write f buf size userOk) =
        some (⟨ret, []⟩, ⟨dev, Function.update s.fPos f pos⟩) := congrArg (Option.map _) hwrite
    exact (freesLock_served hserve).trans hfree
  | ioctl f cmd =>
    obtain ⟨ret, dev, hioctl, hfree⟩ := gmemIoctl_frees h cmd
    have hserve : s.serve arch (.ioctl f cmd) = some (⟨ret, []⟩, ⟨dev, s.fPos⟩) :=
      congrArg (Option.map _) hioctl
    exact (freesLock_served hserve).trans (iff_of_true hfree not_false)
  | llseek f offset orig => exact iff_of_true ⟨_, _, rfl, h⟩ not_false

theorem next_free {call : Call F} (h : FreesLock arch s call) :
    (s.next arch call).dev.locked = false := by
  obtain ⟨answer, s', hserve, hfree⟩ := h
  unfold State.next
  rw [hserve]
  exact hfree

/-- **The lock is left behind by faulting writes only**: from a free lock, every call of a
sequence returns and leaves the lock free exactly when the copy of no write faults. -/
theorem lock_free_iff (h : s.dev.locked = false) (calls : List (Call F)) :
    Along (State.next arch) (FreesLock arch) s calls ↔
      Along (State.next arch) (fun s call => ¬ WriteFaults arch s call) s calls := by
  refine along_iff (I := fun s => s.dev.locked = false) (V := fun _ _ => True)
    (fun hfree _ => freesLock_iff hfree _) ?_ h ((along_forall _ _ _ _).mpr fun _ _ => trivial)
  intro s call hfree _ hnot
  exact next_free ((freesLock_iff hfree call).mpr hnot)

end Sequences

/-- The module has been loaded, and one file is open. -/
def loaded : State Unit := ⟨⟨fun _ => 0, false⟩, fun _ => 0⟩

/-- A read that faults, a write up to the end of the device and one behind it. -/
theorem lock_free_fault_read :
    Along (State.next ⟨32, Nat.le_refl 32⟩) (FreesLock ⟨32, Nat.le_refl 32⟩) loaded
      [.read () 8 3, .write () (fun _ => 1) 5000 4096, .write () (fun _ => 1) 8 0,
        .ioctl () 1] := by
  refine (lock_free_iff rfl _).mpr ⟨not_false, ?_, ?_, not_false, trivial⟩
  · exact fun hfault => absurd hfault.2 (by decide)
  · exact fun hfault => absurd hfault.1 (by decide)

/-- A write of one byte from a bad address returns -EFAULT with the lock held: the next read
waits for ever. -/
theorem write_fault_keeps_lock :
    ∃ s, loaded.serve ⟨32, Nat.le_refl 32⟩ (.write () (fun _ => 1) 1 0) = some (⟨-14, []⟩, s) ∧
      s.dev.locked = true ∧ s.serve ⟨32, Nat.le_refl 32⟩ (.read () 1 1) = none :=
  ⟨_, rfl, rfl, rfl⟩

end LinuxDeviceDriver.Gmem.Mutex
