import LinuxDeviceDriver.Gmem.Mutex
import LinuxDeviceDriver.Lib.Pool
import LinuxDeviceDriver.Lib.Program

/-!
# The lock of gmem_mutex, byte by byte

`Gmem.Mutex` has the functions of `gmem_mutex.c` as single steps. Here any number of threads call
them, and a copy between the device and user memory loads or stores one byte at a time; between
two bytes the other threads go on. A call that finds its position behind the device returns
without the lock.

Whatever the order of the steps, the calls that have returned have done what they do as single
steps, one after the other (`Replays`), and the memory is what they leave. The invariant is a
`Phase`: the lock is free, or one thread is inside and somewhere on its own run, or the lock is
lost. A write that faults loses it: it returns without `mutex_unlock`, and nobody gets in again.
-/

namespace LinuxDeviceDriver.Gmem.Mutex

open Lib

/-! ## Calls as programs -/

/-- An access to one byte of the device. -/
inductive Cmd
  | load (i : Nat)
  | store (i : Nat) (b : Byte)

def Cmd.Answer : Cmd → Type
  | load _ => Byte
  | store _ _ => Unit

def exec : (c : Cmd) → Memory → c.Answer × Memory
  | .load i, mem => (mem i, mem)
  | .store i b, mem => ((), Function.update mem i b)

abbrev MemProg := Prog Cmd Cmd.Answer

def loadByte (i : Nat) : MemProg Byte := .call (.load i) .ret

def storeByte (i : Nat) (b : Byte) : MemProg PUnit := .call (.store i b) fun _ => .ret ⟨⟩

/-- Load `n` bytes from `p` on. -/
def loads (p : Nat) : Nat → MemProg (List Byte)
  | 0 => pure []
  | n + 1 => do
    let bytes ← loads p n
    let b ← loadByte (p + n)
    return bytes ++ [b]

/-- Store `n` bytes from `p` on. -/
def stores (p : Nat) (buf : Nat → Byte) : Nat → MemProg PUnit
  | 0 => pure ⟨⟩
  | n + 1 => do
    stores p buf n
    storeByte (p + n) (buf n)

theorem run_loads (p n : Nat) (mem : Memory) :
    (loads p n).run exec mem = (slice mem p n, mem) := by
  induction n with
  | zero => rfl
  | succ n ih =>
    have hlast : slice mem (p + n) 1 = [mem (p + n)] := rfl
    have hload : (loadByte (p + n)).run exec mem = (mem (p + n), mem) := rfl
    simp only [loads, Prog.run_bind, ih, hload, Prog.run_pure]
    rw [slice_add, hlast]

theorem run_stores (p : Nat) (buf : Nat → Byte) (n : Nat) (mem : Memory) :
    (stores p buf n).run exec mem = (⟨⟩, blit mem (fun i => p + i) buf n) := by
  induction n with
  | zero => rfl
  | succ n ih =>
    rw [stores, Prog.run_bind, ih]
    rfl

/-- A call of a function of the driver; `ppos` is the position that the VFS passes. -/
inductive Op
  | read (size userOk : Nat) (ppos : Int)
  | write (buf : Nat → Byte) (size userOk : Nat) (ppos : Int)
  | ioctl (cmd : Nat)

/-- The return value, what has reached user memory, and `*ppos` behind the call. -/
structure Result where
  ret : Int
  data : List Byte
  pos : Int

/-- What a call does as a single step; `none` when it waits for the lock. -/
def Op.serve (arch : Arch) (dev : GmemDev) : Op → Option (Result × GmemDev)
  | read size userOk ppos =>
    (gmemRead arch dev size userOk ppos).map fun (ret, data, dev, pos) => (⟨ret, data, pos⟩, dev)
  | write buf size userOk ppos =>
    (gmemWrite arch dev buf size userOk ppos).map fun (ret, dev, pos) => (⟨ret, [], pos⟩, dev)
  | ioctl cmd => (gmemIoctl dev cmd).map fun (ret, dev) => (⟨ret, [], 0⟩, dev)

/-- How a call goes: it returns at once, or takes the lock and runs what stands behind
`mutex_lock`. The program also says whether the lock is released before the function returns. -/
inductive Course
  | early (result : Result)
  | locked (body : MemProg (Result × Bool))

def Op.course (arch : Arch) : Op → Course
  | read size userOk ppos =>
    let p := index arch ppos
    if p ≥ gmemSize then .early ⟨0, [], ppos⟩
    else
      let count := transferCount size p
      .locked do
        let data ← loads p (min userOk count)
        if userOk < count then return (⟨Errno.efault.neg, data, ppos⟩, true)
        else return (⟨count, data, toInt64 (ppos + count)⟩, true)
  | write buf size userOk ppos =>
    let p := index arch ppos
    if p ≥ gmemSize then .early ⟨0, [], ppos⟩
    else
      let count := transferCount size p
      .locked do
        -- behind a fault the copy goes on with zeros
        stores p (fun i => if i < min userOk count then buf i else 0) count
        if userOk < count then return (⟨Errno.efault.neg, [], ppos⟩, false)
        else return (⟨count, [], toInt64 (ppos + count)⟩, true)
  | ioctl cmd =>
    if cmd = memClearCmd then
      .locked do
        stores 0 (fun _ => 0) gmemSize
        return (⟨0, [], 0⟩, true)
    else .early ⟨Errno.einval.neg, [], 0⟩

/-! ## The system -/

inductive Pc
  | outside
  | waiting (op : Op) (body : MemProg (Result × Bool))
  | inside (op : Op) (body rest : MemProg (Result × Bool))

def Pc.isInside : Pc → Bool
  | inside _ _ _ => true
  | _ => false

/-- The owner of the lock, the memory, and (as a ghost) the calls that have returned, newest
first. -/
structure Shared (T : Type) where
  owner : Option T
  mem : Memory
  log : List (Op × Result)

inductive Event
  | call (op : Op)
  | run

section System

variable {T : Type} [DecidableEq T] (arch : Arch)

def move (t : T) (pc : Pc) (g : Shared T) : Event → Option (Pc × Shared T)
  | .call op =>
    match pc with
    | .outside =>
      match op.course arch with
      | .early result => some (.outside, { g with log := (op, result) :: g.log })
      | .locked body => some (.waiting op body, g)
    | _ => none
  | .run =>
    match pc with
    | .outside => none
    | .waiting op body =>
      if g.owner = none then some (.inside op body body, { g with owner := some t }) else none
    | .inside op body (.call c next) =>
      some (.inside op body (next (exec c g.mem).1), { g with mem := (exec c g.mem).2 })
    | .inside op _ (.ret (result, unlocks)) =>
      some (.outside,
        { g with owner := if unlocks then none else g.owner, log := (op, result) :: g.log })

/-- Nobody has called yet. -/
def start (mem : Memory) : Pool T Pc (Shared T) where
  threads := fun _ => .outside
  shared := ⟨none, mem, []⟩

/-! ## One after the other -/

/-- The calls of the log, newest first, as single steps. -/
def Replays (mem₀ : Memory) : List (Op × Result) → GmemDev → Prop
  | [], dev => dev = ⟨mem₀, false⟩
  | (op, result) :: log, dev' =>
    ∃ dev, Replays mem₀ log dev ∧ op.serve arch dev = some (result, dev')

variable {arch} {mem₀ : Memory}

/-- A call that returns at once does so whoever has the lock. -/
theorem serve_early {op : Op} {result : Result} (h : op.course arch = .early result)
    (dev : GmemDev) : op.serve arch dev = some (result, dev) := by
  cases op with
  | read size userOk ppos =>
    simp only [Op.course] at h
    split at h
    · next hend =>
      cases h
      simp only [Op.serve, gmemRead, if_pos hend, Option.map_some]
    · cases h
  | write buf size userOk ppos =>
    simp only [Op.course] at h
    split at h
    · next hend =>
      cases h
      simp only [Op.serve, gmemWrite, if_pos hend, Option.map_some]
    · cases h
  | ioctl cmd =>
    simp only [Op.course] at h
    split at h
    · cases h
    · next hcmd =>
      cases h
      simp only [Op.serve, gmemIoctl, if_neg hcmd, Option.map_some]

/-- What stands behind `mutex_lock`, run without interruption, is the call as a single step. -/
theorem serve_locked {op : Op} {body : MemProg (Result × Bool)}
    (h : op.course arch = .locked body) (mem : Memory) :
    op.serve arch ⟨mem, false⟩ =
      some ((body.run exec mem).1.1, ⟨(body.run exec mem).2, !(body.run exec mem).1.2⟩) := by
  cases op with
  | read size userOk ppos =>
    simp only [Op.course] at h
    split at h
    · cases h
    next hin =>
    cases h
    have hslice : ∀ n, slice (fun i => mem (index arch ppos + i)) 0 n =
        slice mem (index arch ppos) n := fun n => slice_congr fun i _ => by rw [Nat.zero_add]
    rw [Prog.run_bind, run_loads, Prog.run_ite, Op.serve, gmemRead]
    simp only [if_neg hin, GmemDev.mutexLock_free, Option.bind_some]
    split
    · next hleft =>
      simp only [copyToUser] at hleft
      rw [if_pos (by omega), copyToUser, hslice]
      rfl
    · next hdone =>
      simp only [copyToUser] at hdone
      rw [if_neg (by omega), copyToUser, hslice]
      rfl
  | write buf size userOk ppos =>
    simp only [Op.course] at h
    split at h
    · cases h
    next hin =>
    cases h
    rw [Prog.run_bind, run_stores, Prog.run_ite, Op.serve, gmemWrite]
    simp only [if_neg hin, GmemDev.mutexLock_free, Option.bind_some]
    split
    · next hleft =>
      simp only [copyFromUser] at hleft
      rw [if_pos (by omega)]
      rfl
    · next hdone =>
      simp only [copyFromUser] at hdone
      rw [if_neg (by omega)]
      rfl
  | ioctl cmd =>
    simp only [Op.course] at h
    split at h
    · next hcmd =>
      rw [← Course.locked.inj h]
      have hclear : gmemClear mem = blit mem (fun i => 0 + i) (fun _ => 0) gmemSize :=
        blit_congr mem (fun i _ => (Nat.zero_add i).symm) fun _ _ => rfl
      rw [Prog.run_bind, run_stores, ← hclear, Op.serve, gmemIoctl, if_pos hcmd,
        GmemDev.mutexLock_free rfl]
      simp only [Option.bind_some, Option.map_some, GmemDev.mutexUnlock, Prog.run_pure,
        Bool.not_true]
    · cases h

/-! ## The invariant -/

/-- The lock is free, or one thread is inside and on its way, or a faulted write has kept it. -/
inductive Phase (arch : Arch) (mem₀ : Memory) (threads : T → Pc) (g : Shared T) : Prop
  | free (howner : g.owner = none) (hnone : ∀ t, (threads t).isInside = false)
    (hlog : Replays arch mem₀ g.log ⟨g.mem, false⟩)
  | inside (t : T) (op : Op) (body rest : MemProg (Result × Bool)) (mem : Memory)
    (howner : g.owner = some t) (hpc : threads t = .inside op body rest)
    (hothers : ∀ u, u ≠ t → (threads u).isInside = false)
    (hcourse : op.course arch = .locked body) (hlog : Replays arch mem₀ g.log ⟨mem, false⟩)
    (hrun : body.run exec mem = rest.run exec g.mem)
  | lost (howner : g.owner ≠ none) (hnone : ∀ t, (threads t).isInside = false)
    (hlog : Replays arch mem₀ g.log ⟨g.mem, true⟩)

/-- A thread that waits does so with the program of its call. -/
def Waits (arch : Arch) (threads : T → Pc) : Prop :=
  ∀ t op body, threads t = .waiting op body → op.course arch = .locked body

variable {threads : T → Pc} {g : Shared T} {t : T}

/-- A move outside the section leaves everybody as far inside as they are. -/
theorem isInside_update {pc : Pc} (h : pc.isInside = false) {u : T}
    (hu : u ≠ t → (threads u).isInside = false) :
    (Function.update threads t pc u).isInside = false := by
  by_cases hut : u = t
  · rw [hut, Function.update_self]
    exact h
  · rw [Function.update_of_ne hut]
    exact hu hut

/-- A call comes in, and perhaps returns at once. -/
theorem Phase.call (h : Phase arch mem₀ threads g) (hpc : threads t = .outside) {pc : Pc}
    (hpc' : pc.isInside = false) {log : List (Op × Result)}
    (hlog : ∀ dev, Replays arch mem₀ g.log dev → Replays arch mem₀ log dev) :
    Phase arch mem₀ (Function.update threads t pc) { g with log := log } := by
  cases h with
  | free howner hnone hreplay =>
    exact .free howner (fun u => isInside_update hpc' fun _ => hnone u) (hlog _ hreplay)
  | inside u op body rest mem howner hu hothers hcourse hreplay hrun =>
    have hut : u ≠ t := by
      rintro rfl
      rw [hpc] at hu
      cases hu
    refine .inside u op body rest mem howner ?_ (fun v hv => ?_) hcourse (hlog _ hreplay) hrun
    · rw [Function.update_of_ne hut]
      exact hu
    · exact isInside_update hpc' fun _ => hothers v hv
  | lost howner hnone hreplay =>
    exact .lost howner (fun u => isInside_update hpc' fun _ => hnone u) (hlog _ hreplay)

/-- The lock is taken. -/
theorem Phase.enter (h : Phase arch mem₀ threads g) (hfree : g.owner = none) {op : Op}
    {body : MemProg (Result × Bool)} (hcourse : op.course arch = .locked body) :
    Phase arch mem₀ (Function.update threads t (.inside op body body))
      { g with owner := some t } := by
  cases h with
  | free _ hnone hreplay =>
    refine .inside t op body body g.mem rfl (Function.update_self ..) (fun u hu => ?_) hcourse
      hreplay rfl
    rw [Function.update_of_ne hu]
    exact hnone u
  | inside u _ _ _ _ howner =>
    rw [hfree] at howner
    cases howner
  | lost howner => exact absurd hfree howner

/-- The phase of a thread inside. -/
theorem Phase.of_inside (h : Phase arch mem₀ threads g) {op : Op}
    {body rest : MemProg (Result × Bool)} (hpc : threads t = .inside op body rest) :
    g.owner = some t ∧ (∀ u, u ≠ t → (threads u).isInside = false) ∧
      op.course arch = .locked body ∧
      ∃ mem, Replays arch mem₀ g.log ⟨mem, false⟩ ∧ body.run exec mem = rest.run exec g.mem := by
  have hin : (threads t).isInside = true := by
    rw [hpc]
    rfl
  cases h with
  | free _ hnone => rw [hnone t] at hin; cases hin
  | lost _ hnone => rw [hnone t] at hin; cases hin
  | inside u op' body' rest' mem howner hu hothers hcourse hreplay hrun =>
    have htu : t = u := by
      by_contra hne
      rw [hothers t hne] at hin
      cases hin
    subst htu
    rw [hpc] at hu
    cases hu
    exact ⟨howner, hothers, hcourse, mem, hreplay, hrun⟩

/-- The thread inside goes on by one byte. -/
theorem Phase.goOn (h : Phase arch mem₀ threads g) {op : Op} {body : MemProg (Result × Bool)}
    {c : Cmd} {next : c.Answer → MemProg (Result × Bool)}
    (hpc : threads t = .inside op body (.call c next)) :
    Phase arch mem₀ (Function.update threads t (.inside op body (next (exec c g.mem).1)))
      { g with mem := (exec c g.mem).2 } := by
  obtain ⟨howner, hothers, hcourse, mem, hreplay, hrun⟩ := h.of_inside hpc
  refine .inside t op body _ mem howner (Function.update_self ..) (fun u hu => ?_) hcourse hreplay
    hrun
  rw [Function.update_of_ne hu]
  exact hothers u hu

/-- The call returns: as a single step it has the same result and leaves the same device. -/
theorem Phase.leave (h : Phase arch mem₀ threads g) {op : Op} {body : MemProg (Result × Bool)}
    {result : Result} {unlocks : Bool}
    (hpc : threads t = .inside op body (.ret (result, unlocks))) :
    Phase arch mem₀ (Function.update threads t .outside)
      { g with owner := if unlocks then none else g.owner, log := (op, result) :: g.log } := by
  obtain ⟨howner, hothers, hcourse, mem, hreplay, hrun⟩ := h.of_inside hpc
  have hserve := serve_locked hcourse mem
  rw [hrun, Prog.run_ret] at hserve
  have hnone : ∀ u, (Function.update threads t .outside u).isInside = false := fun u =>
    isInside_update rfl (hothers u)
  cases unlocks with
  | true => exact .free rfl hnone ⟨_, hreplay, hserve⟩
  | false =>
    refine .lost ?_ hnone ⟨_, hreplay, hserve⟩
    show g.owner ≠ none
    rw [howner]
    exact Option.some_ne_none t

/-- One step. -/
theorem step_phase {s s' : Pool T Pc (Shared T)} {a : T × Event}
    (h : Phase arch mem₀ s.threads s.shared ∧ Waits arch s.threads)
    (hstep : s.step (move arch) a = some s') :
    Phase arch mem₀ s'.threads s'.shared ∧ Waits arch s'.threads := by
  obtain ⟨hphase, hwaits⟩ := h
  obtain ⟨t, e⟩ := a
  obtain ⟨pc', g', hmove, rfl⟩ := Pool.step_cases hstep
  have hkeep : ∀ {pc}, (∀ op body, pc = .waiting op body → op.course arch = .locked body) →
      Waits arch (Function.update s.threads t pc) := fun hpc =>
    (Function.forall_update_iff s.threads fun _ pc =>
      ∀ op body, pc = .waiting op body → op.course arch = .locked body).mpr
      ⟨hpc, fun u _ => hwaits u⟩
  cases hpc : s.threads t with
  | outside =>
    simp only [hpc] at hmove
    cases e with
    | call op =>
      simp only [move] at hmove
      split at hmove
      · next result hcourse =>
        cases hmove
        refine ⟨hphase.call hpc rfl fun dev hreplay => ?_, hkeep fun _ _ h => by cases h⟩
        exact ⟨dev, hreplay, serve_early hcourse dev⟩
      · next body hcourse =>
        cases hmove
        refine ⟨hphase.call hpc rfl fun _ => id, hkeep ?_⟩
        rintro op' body' ⟨⟩
        exact hcourse
    | run => cases hmove
  | waiting op body =>
    simp only [hpc] at hmove
    cases e with
    | call op' => cases hmove
    | run =>
      simp only [move] at hmove
      split at hmove
      · next hfree =>
        cases hmove
        exact ⟨hphase.enter hfree (hwaits t op body hpc), hkeep fun _ _ h => by cases h⟩
      · cases hmove
  | inside op body rest =>
    simp only [hpc] at hmove
    cases e with
    | call op' => cases hmove
    | run =>
      cases rest with
      | call c next =>
        cases hmove
        exact ⟨hphase.goOn hpc, hkeep fun _ _ h => by cases h⟩
      | ret r =>
        obtain ⟨result, unlocks⟩ := r
        cases hmove
        exact ⟨hphase.leave hpc, hkeep fun _ _ h => by cases h⟩

omit [DecidableEq T] in
theorem start_phase (mem₀ : Memory) :
    Phase arch mem₀ (start mem₀ : Pool T Pc (Shared T)).threads (start mem₀).shared ∧
      Waits arch (start mem₀ : Pool T Pc (Shared T)).threads :=
  ⟨.free rfl (fun _ => rfl) rfl, fun _ _ _ h => by cases h⟩

theorem reach_phase {s : Pool T Pc (Shared T)}
    (h : Reach (Pool.step (move arch)) anyStep (start mem₀) s) :
    Phase arch mem₀ s.threads s.shared ∧ Waits arch s.threads :=
  h.invariant (I := fun s => Phase arch mem₀ s.threads s.shared ∧ Waits arch s.threads)
    (start_phase mem₀) fun h _ hstep => step_phase h hstep

/-! ## Who has the lock -/

/-- A write whose copy has faulted. -/
def faulted : Op × Result → Prop
  | (.write _ _ _ _, result) => result.ret = Errno.efault.neg
  | _ => False

theorem not_faulted_early {op : Op} {result : Result} (h : op.course arch = .early result) :
    ¬ faulted (op, result) := by
  cases op with
  | read size userOk ppos | ioctl cmd => exact id
  | write buf size userOk ppos =>
    simp only [Op.course] at h
    split at h
    · cases h
      have hcode : (0 : Int) ≠ Errno.efault.neg := by decide
      exact hcode
    · cases h

/-- Behind `mutex_lock` only a write that faults returns with the lock. -/
theorem faulted_iff_keeps {op : Op} {body : MemProg (Result × Bool)}
    (h : op.course arch = .locked body) (mem : Memory) :
    faulted (op, (body.run exec mem).1.1) ↔ (body.run exec mem).1.2 = false := by
  cases op with
  | read size userOk ppos =>
    simp only [Op.course] at h
    split at h
    · cases h
    · rw [← Course.locked.inj h, Prog.run_bind, Prog.run_ite]
      split <;> exact iff_of_false id Bool.noConfusion
  | write buf size userOk ppos =>
    simp only [Op.course] at h
    split at h
    · cases h
    · rw [← Course.locked.inj h, Prog.run_bind, Prog.run_ite]
      split
      · exact iff_of_true rfl rfl
      · refine iff_of_false (fun hret => ?_) Bool.noConfusion
        have hneg := Errno.neg_lt_zero .efault
        have hcount : (transferCount size (index arch ppos) : Int) = Errno.efault.neg := hret
        omega
  | ioctl cmd =>
    simp only [Op.course] at h
    split at h
    · rw [← Course.locked.inj h, Prog.run_bind]
      exact iff_of_false id Bool.noConfusion
    · cases h

theorem serve_waits {op : Op} {body : MemProg (Result × Bool)}
    (h : op.course arch = .locked body) (mem : Memory) : op.serve arch ⟨mem, true⟩ = none := by
  cases op with
  | read size userOk ppos =>
    simp only [Op.course] at h
    split at h
    · cases h
    · next hin =>
      rw [Op.serve, gmemRead, if_neg hin]
      rfl
  | write buf size userOk ppos =>
    simp only [Op.course] at h
    split at h
    · cases h
    · next hin =>
      rw [Op.serve, gmemWrite, if_neg hin]
      rfl
  | ioctl cmd =>
    simp only [Op.course] at h
    split at h
    · next hcmd =>
      rw [Op.serve, gmemIoctl, if_pos hcmd]
      rfl
    · cases h

/-- A call that returns leaves the lock taken if it was, or if it is a write that has faulted. -/
theorem serve_keeps_lock_iff {op : Op} {dev dev' : GmemDev} {result : Result}
    (h : op.serve arch dev = some (result, dev')) :
    dev'.locked = true ↔ dev.locked = true ∨ faulted (op, result) := by
  cases hcourse : op.course arch with
  | early early =>
    rw [serve_early hcourse] at h
    cases h
    exact (or_iff_left (not_faulted_early hcourse)).symm
  | locked body =>
    obtain ⟨mem, locked⟩ := dev
    cases locked with
    | true =>
      rw [serve_waits hcourse] at h
      cases h
    | false =>
      rw [serve_locked hcourse] at h
      cases h
      rw [faulted_iff_keeps hcourse mem, Bool.not_eq_true']
      exact (or_iff_right Bool.noConfusion).symm

theorem Replays.locked_iff {log : List (Op × Result)} {dev : GmemDev}
    (h : Replays arch mem₀ log dev) : dev.locked = true ↔ ∃ e ∈ log, faulted e := by
  induction log generalizing dev with
  | nil =>
    rw [h]
    simp
  | cons e log ih =>
    obtain ⟨dev', hreplay, hserve⟩ := h
    rw [serve_keeps_lock_iff hserve, ih hreplay]
    simp only [List.mem_cons, exists_eq_or_imp]
    exact or_comm

/-- **Calls of gmem_mutex are atomic.** However the threads interleave their bytes: a thread inside
has the lock; while nobody is inside, the memory, the results and the lock are those of the returned
calls as single steps, one after the other, and the lock is taken exactly when one of them is a
write that has faulted; and as long as there is none, threads that have not returned do not block
each other for ever. -/
theorem gmem_mutex_calls_atomic {s : Pool T Pc (Shared T)}
    (h : Reach (Pool.step (move arch)) anyStep (start mem₀) s) :
    (∀ t, (s.threads t).isInside = true → s.shared.owner = some t) ∧
    ((∀ t, (s.threads t).isInside = false) →
      Replays arch mem₀ s.shared.log ⟨s.shared.mem, s.shared.owner.isSome⟩ ∧
      (s.shared.owner.isSome = true ↔ ∃ e ∈ s.shared.log, faulted e)) ∧
    ((¬ ∃ e ∈ s.shared.log, faulted e) → ∀ t, s.threads t ≠ .outside →
      ∃ u s', s.step (move arch) (u, .run) = some s') := by
  obtain ⟨hphase, -⟩ := reach_phase h
  refine ⟨fun t ht => ?_, fun hnone => ?_, fun hgood t ht => ?_⟩
  · cases hpc : s.threads t with
    | inside op body rest => exact (hphase.of_inside hpc).1
    | outside | waiting => rw [hpc] at ht; cases ht
  · have hreplay : Replays arch mem₀ s.shared.log ⟨s.shared.mem, s.shared.owner.isSome⟩ := by
      cases hphase with
      | free howner _ hlog =>
        rw [howner]
        exact hlog
      | inside t op body rest mem howner hpc =>
        have hin := hnone t
        rw [hpc] at hin
        cases hin
      | lost howner _ hlog =>
        rw [Option.isSome_iff_ne_none.mpr howner]
        exact hlog
    exact ⟨hreplay, hreplay.locked_iff⟩
  · cases hphase with
    | free howner hnone _ =>
      cases hpc : s.threads t with
      | outside => exact absurd hpc ht
      | waiting op body =>
        have hmove : move arch t (.waiting op body) s.shared .run =
            some (.inside op body body, { s.shared with owner := some t }) := if_pos howner
        exact ⟨t, Pool.step_of_move (hpc ▸ hmove)⟩
      | inside op body rest =>
        have hin := hnone t
        rw [hpc] at hin
        cases hin
    | inside u op body rest mem howner hpc =>
      refine ⟨u, ?_⟩
      obtain ⟨r, hmove⟩ : ∃ r, move arch u (.inside op body rest) s.shared .run = some r := by
        cases rest with
        | call c next => exact ⟨_, rfl⟩
        | ret r => exact ⟨_, rfl⟩
      exact Pool.step_of_move (hpc ▸ hmove)
    | lost howner _ hlog => exact absurd (hlog.locked_iff.mp rfl) hgood

end System

/-- A write of two bytes, and a read that has come in before them and waits. -/
theorem gmem_mutex_calls_atomic_two :
    ∃ s, runFrom (Pool.step (move ⟨32, Nat.le_refl 32⟩)) (start fun _ => 0)
        [(true, .call (.write (fun _ => 7) 2 2 0)), (true, .run), (false, .call (.read 2 2 0)),
          (true, .run), (true, .run), (true, .run)] = some s ∧
      Replays ⟨32, Nat.le_refl 32⟩ (fun _ => 0) s.shared.log ⟨s.shared.mem, false⟩ := by
  obtain ⟨s, hrun, hnone, howner⟩ : ∃ s,
      runFrom (Pool.step (move ⟨32, Nat.le_refl 32⟩)) (start fun _ => 0)
        [(true, .call (.write (fun _ => 7) 2 2 0)), (true, .run), (false, .call (.read 2 2 0)),
          (true, .run), (true, .run), (true, .run)] = some s ∧
      (∀ t, (s.threads t).isInside = false) ∧ s.shared.owner = none :=
    ⟨_, rfl, by decide, rfl⟩
  refine ⟨s, hrun, ?_⟩
  have hreplay := ((gmem_mutex_calls_atomic (reach_runFrom hrun)).2.1 hnone).1
  rwa [howner] at hreplay

end LinuxDeviceDriver.Gmem.Mutex
