import LinuxDeviceDriver.Lib.Mutex
import LinuxDeviceDriver.Lib.Pool
import LinuxDeviceDriver.Generic.Masked

/-!
# The lock around register accesses

`LOCK` and `UNLOCK` of `generic_access.c` look at the global `ga_lock_mode`, each on
its own, and then take or release the spinlock or the mutex. Any number of threads
call the access functions here, and `ga_set_lock_mode`; a step is one of: look at
the mode, take the lock, one register access, look at the mode again, release.

Nothing keeps the mode from changing while a call is under way. When it does, two
calls are inside at once, a masked update gets lost, and a call releases a lock it
does not hold (`ga_reg_sections_broken`). `ga_reg_sections` is what holds as long as
the lock in use only changes while no call is under way.
-/

namespace LinuxDeviceDriver.Generic.Locking

open Lib

/-- `ga_spinlock` and `ga_mutex`. -/
inductive Lock
  | spinlock
  | mutex
deriving DecidableEq, Repr

/-- The lock a value of `ga_lock_mode` stands for: `GA_LM_SPINLOCK` is 0. -/
def lockOf (mode : Int) : Lock := if mode = 0 then .spinlock else .mutex

/-- A call of `ga_reg_writeN` or `ga_reg_readN`. -/
inductive Op
  | write (w : Width) (addr : Iomem) (mask value : BitVec w.bits) (options : BitVec 32)
  | read (w : Width) (addr : Iomem) (mask : BitVec w.bits)

/-- What it returns. -/
inductive Result
  | modified (rc : Modified)
  | value (w : Width) (reg : BitVec w.bits)

/-- The accesses between `LOCK` and `UNLOCK`. -/
def Op.accesses : Op → RegProg Result
  | write w addr mask value options => do
    let rc ← gaRegWriteN .native w addr mask value options
    return .modified rc
  | read w addr mask => do
    let reg ← gaRegReadN .native w addr mask
    return .value w reg

/-- Where a thread stands. -/
inductive Pc
  | outside
  /-- `LOCK` has looked at the mode. -/
  | chosen (op : Op) (lock : Lock)
  /-- The lock is taken. -/
  | inside (op : Op) (lock : Lock) (rest : RegProg Result)
  /-- `UNLOCK` has looked at the mode. -/
  | leaving (op : Op) (lock unlock : Lock) (result : Result)

/-- The globals, the registers, and (as a ghost) the calls that have released their lock. -/
structure Shared (T σ : Type) where
  gaLockMode : Int
  owner : Lock → Option T
  regs : σ
  log : List (Op × Result)

inductive Event
  | call (op : Op)
  | setLockMode (mode : Int)
  | run

section System

variable {T σ : Type} [DecidableEq T]

/-- One step of a thread. A lock that is released is free, whoever has taken it. -/
def move (exec : (c : RegCmd) → σ → c.Answer × σ) (t : T) (pc : Pc) (g : Shared T σ) :
    Event → Option (Pc × Shared T σ)
  | .call op =>
    match pc with
    | .outside => some (.chosen op (lockOf g.gaLockMode), g)
    | _ => none
  | .setLockMode mode =>
    match pc with
    | .outside => some (.outside, { g with gaLockMode := mode })
    | _ => none
  | .run =>
    match pc with
    | .outside => none
    | .chosen op lock =>
      if g.owner lock = none then
        some (.inside op lock op.accesses,
          { g with owner := Function.update g.owner lock (some t) })
      else none
    | .inside op lock (.call c next) =>
      some (.inside op lock (next (exec c g.regs).1), { g with regs := (exec c g.regs).2 })
    | .inside op lock (.ret result) => some (.leaving op lock (lockOf g.gaLockMode) result, g)
    | .leaving op _ unlock result =>
      some (.outside,
        { g with
          owner := Function.update g.owner unlock none
          log := (op, result) :: g.log })

/-- Nobody is inside, and both locks are free. -/
def start (mode : Int) (regs : σ) : Pool T Pc (Shared T σ) where
  threads := fun _ => .outside
  shared := { gaLockMode := mode, owner := fun _ => none, regs := regs, log := [] }

/-- `ga_set_lock_mode` changes the lock in use only while no call is under way. -/
def KeepsLock (s : Pool T Pc (Shared T σ)) (a : T × Event) : Prop :=
  ∀ mode, a.2 = .setLockMode mode →
    lockOf mode = lockOf s.shared.gaLockMode ∨ ∀ t, s.threads t = .outside

/-! ## What a call does to one register -/

section Register

variable {exec : (c : RegCmd) → σ → c.Answer × σ} {w : Width} {addr : Iomem}
  {content : σ → BitVec w.bits}

/-- The content of the register at `addr` behind a call. -/
def Op.effect (w : Width) (addr : Iomem) (op : Op) (old : BitVec w.bits) : BitVec w.bits :=
  match op with
  | .write w' addr' mask value options =>
    if h : w' = w ∧ addr' = addr then updated options old (h.1 ▸ mask) (h.1 ▸ value) else old
  | .read _ _ _ => old

/-- The call asks for something documented, and its register is this one or does not
touch it. -/
def Op.Respects (exec : (c : RegCmd) → σ → c.Answer × σ) (w : Width) (addr : Iomem)
    (content : σ → BitVec w.bits) : Op → Prop
  | .write w' addr' _ _ options =>
    Documented options ∧ (w' = w ∧ addr' = addr ∨ Keeps exec w' addr' content)
  | .read w' addr' _ => w' = w ∧ addr' = addr ∨ Keeps exec w' addr' content

theorem Op.content_accesses (hmem : RegMemory exec w addr content) {op : Op}
    (hop : op.Respects exec w addr content) (s : σ) :
    content (op.accesses.run exec s).2 = op.effect w addr (content s) := by
  cases op with
  | write w' addr' mask value options =>
    obtain ⟨hoptions, hsame⟩ := hop
    simp only [Op.accesses, Op.effect, Prog.run_bind, gaRegWriteN_native]
    split
    · next h =>
      obtain ⟨rfl, rfl⟩ := h
      exact gaDefineRegWrite_content hmem rfl hoptions mask value s
    · next h => exact gaDefineRegWrite_keeps (hsame.resolve_left h) _ mask value options s
  | read w' addr' mask =>
    simp only [Op.accesses, Op.effect, Prog.run_bind, gaRegReadN_native]
    rcases hop with ⟨rfl, rfl⟩ | hkeeps
    · exact hmem.read_keeps s
    · exact hkeeps.read s

end Register

/-! ## The invariant -/

/-- What a thread inside has to do, and what is left of it. -/
def Pc.underway : Pc → Option (RegProg Result × RegProg Result)
  | outside => none
  | chosen _ _ => none
  | inside op _ rest => some (op.accesses, rest)
  | leaving op _ _ result => some (op.accesses, .ret result)

/-- The thread has taken a lock and not released it. -/
def Pc.holds (pc : Pc) : Bool := pc.underway.isSome

/-- The completed calls, newest first, with what they did. -/
def performed (log : List (Op × Result)) : List (RegProg Result × Result) :=
  log.map fun e => (e.1.accesses, e.2)

/-- Every lock the thread knows of is this one. -/
def Pc.Agrees (lock : Lock) : Pc → Prop
  | outside => True
  | chosen _ l => l = lock
  | inside _ l _ => l = lock
  | leaving _ l unlock _ => l = lock ∧ unlock = lock

variable {exec : (c : RegCmd) → σ → c.Answer × σ} {regs₀ : σ}

/-- The lock in use is the only one, its owner is the thread inside, and that thread goes
on where the completed calls have left the registers. -/
structure Inv (exec : (c : RegCmd) → σ → c.Answer × σ) (regs₀ : σ) (threads : T → Pc)
    (g : Shared T σ) : Prop where
  agrees : ∀ t, (threads t).Agrees (lockOf g.gaLockMode)
  inUse : MutexInv Pc.holds (g.owner (lockOf g.gaLockMode)) threads
  unused : ∀ lock, lock ≠ lockOf g.gaLockMode → g.owner lock = none
  underway : ∀ t p rest, (threads t).underway = some (p, rest) →
    Section exec regs₀ (performed g.log) p rest g.regs
  free : (∀ t, (threads t).holds = false) →
    Serial exec regs₀ (performed g.log) g.regs

variable {threads : T → Pc} {g : Shared T σ} {t : T} {op : Op} {lock unlock : Lock}

omit [DecidableEq T] in
theorem start_inv (mode : Int) :
    Inv exec regs₀ (fun _ : T => .outside) ⟨mode, fun _ => none, regs₀, []⟩ where
  agrees := fun _ => trivial
  inUse := fun _ => ⟨nofun, nofun⟩
  unused := fun _ _ => rfl
  underway := fun _ _ _ h => nomatch h
  free := fun _ => rfl

omit [DecidableEq T] in
/-- A thread that has something left to do is the one that holds the lock. -/
theorem Inv.unique (h : Inv exec regs₀ threads g) (ht : (threads t).holds = true) {u : T}
    {r : RegProg Result × RegProg Result} (hu : (threads u).underway = some r) : u = t := by
  refine h.inUse.exclusive ?_ ht
  rw [Pc.holds, hu]
  rfl

/-- The calls under way when thread `t` has moved on. -/
theorem underway_update {log : List (RegProg Result × Result)} {regs : σ} {pc : Pc}
    (ht : ∀ p rest, pc.underway = some (p, rest) → Section exec regs₀ log p rest regs)
    (hothers : ∀ u, u ≠ t → ∀ p rest, (threads u).underway = some (p, rest) →
      Section exec regs₀ log p rest regs) (u : T) (p rest : RegProg Result)
    (hu : (Function.update threads t pc u).underway = some (p, rest)) :
    Section exec regs₀ log p rest regs :=
  (Function.forall_update_iff threads fun _ pc => ∀ p rest, pc.underway = some (p, rest) →
    Section exec regs₀ log p rest regs).mpr ⟨ht, hothers⟩ u p rest hu

/-- `LOCK` looks at the mode. -/
theorem Inv.choose (h : Inv exec regs₀ threads g) (hpc : threads t = .outside) :
    Inv exec regs₀ (Function.update threads t (.chosen op (lockOf g.gaLockMode))) g := by
  refine ⟨?_, h.inUse.stay (by rw [hpc]; rfl), h.unused,
    underway_update nofun fun u _ => h.underway u, fun hall => h.free fun u => ?_⟩
  · exact (Function.forall_update_iff _ fun _ pc => Pc.Agrees _ pc).mpr ⟨rfl, fun u _ => h.agrees u⟩
  · by_cases hut : u = t
    · rw [hut, hpc]
      rfl
    · have hu := hall u
      rwa [Function.update_of_ne hut] at hu

/-- The lock is taken. -/
theorem Inv.acquire (h : Inv exec regs₀ threads g) (hpc : threads t = .chosen op lock)
    (hfree : g.owner lock = none) :
    Inv exec regs₀ (Function.update threads t (.inside op lock op.accesses))
      { g with owner := Function.update g.owner lock (some t) } := by
  obtain rfl : lock = lockOf g.gaLockMode := by
    have hagrees := h.agrees t
    rwa [hpc] at hagrees
  have hall := h.inUse.outside hfree
  refine ⟨?_, ?_, fun lock hlock => ?_, underway_update ?_ ?_, fun hnone => ?_⟩
  · exact (Function.forall_update_iff _ fun _ pc => Pc.Agrees _ pc).mpr ⟨rfl, fun u _ => h.agrees u⟩
  · show MutexInv _ (Function.update g.owner _ (some t) _) _
    rw [Function.update_self]
    exact h.inUse.acquire hfree rfl
  · exact (Function.update_of_ne hlock _ _).trans (h.unused lock hlock)
  · rintro p rest ⟨⟩
    exact (h.free hall).enter op.accesses
  · intro u _ p rest hu
    have hout := hall u
    rw [Pc.holds, hu] at hout
    cases hout
  · have ht := hnone t
    rw [Function.update_self] at ht
    cases ht

/-- The thread inside goes on: the registers and what is left of its call move together. -/
theorem Inv.goOn (h : Inv exec regs₀ threads g) {pc : Pc} {regs : σ} {p rest rest' : RegProg Result}
    (hpc : (threads t).underway = some (p, rest)) (hpc' : pc.underway = some (p, rest'))
    (hagrees : pc.Agrees (lockOf g.gaLockMode))
    (hsection : Section exec regs₀ (performed g.log) p rest g.regs →
      Section exec regs₀ (performed g.log) p rest' regs) :
    Inv exec regs₀ (Function.update threads t pc) { g with regs := regs } := by
  have hholds : (threads t).holds = true := by
    rw [Pc.holds, hpc]
    rfl
  have hholds' : pc.holds = true := by
    rw [Pc.holds, hpc']
    rfl
  refine ⟨?_, h.inUse.stay (hholds'.trans hholds.symm), h.unused, underway_update ?_ ?_,
    fun hnone => ?_⟩
  · exact (Function.forall_update_iff _ fun _ pc => Pc.Agrees _ pc).mpr
      ⟨hagrees, fun u _ => h.agrees u⟩
  · intro q r hq
    rw [hpc'] at hq
    cases hq
    exact hsection (h.underway t p rest hpc)
  · intro u hut q r hu
    exact absurd (h.unique hholds hu) hut
  · have ht := hnone t
    rw [Function.update_self, hholds'] at ht
    cases ht

/-- The lock is released. -/
theorem Inv.release (h : Inv exec regs₀ threads g) {result : Result}
    (hpc : threads t = .leaving op lock unlock result) :
    Inv exec regs₀ (Function.update threads t .outside)
      { g with
        owner := Function.update g.owner unlock none
        log := (op, result) :: g.log } := by
  obtain ⟨-, rfl⟩ : lock = lockOf g.gaLockMode ∧ unlock = lockOf g.gaLockMode := by
    have hagrees := h.agrees t
    rwa [hpc] at hagrees
  have hunderway : (threads t).underway = some (op.accesses, .ret result) := by rw [hpc]; rfl
  have hholds : (threads t).holds = true := by rw [hpc]; rfl
  refine ⟨?_, ?_, fun lock hlock => ?_, underway_update nofun ?_,
    fun _ => (h.underway t _ _ hunderway).leave⟩
  · exact (Function.forall_update_iff _ fun _ pc => Pc.Agrees _ pc).mpr
      ⟨trivial, fun u _ => h.agrees u⟩
  · show MutexInv _ (Function.update g.owner _ none _) _
    rw [Function.update_self]
    exact h.inUse.release hholds rfl
  · exact (Function.update_of_ne hlock _ _).trans (h.unused lock hlock)
  · intro u hut p rest hu
    exact absurd (h.unique hholds hu) hut

omit [DecidableEq T] in
/-- The mode changes. -/
theorem Inv.setLockMode (h : Inv exec regs₀ threads g) {mode : Int}
    (hkeeps : lockOf mode = lockOf g.gaLockMode ∨ ∀ t, threads t = .outside) :
    Inv exec regs₀ threads { g with gaLockMode := mode } := by
  rcases hkeeps with hsame | hall
  · refine ⟨?_, ?_, ?_, h.underway, h.free⟩
    · exact fun t => hsame ▸ h.agrees t
    · exact hsame ▸ h.inUse
    · exact hsame ▸ h.unused
  · -- nobody holds anything, so one lock is as good as the other
    have howner : ∀ lock, g.owner lock = none := by
      intro lock
      by_cases hlock : lock = lockOf g.gaLockMode
      · subst hlock
        refine Option.eq_none_iff_forall_ne_some.mpr fun t ht => ?_
        have hholds := (h.inUse t).mp ht
        rw [hall t] at hholds
        cases hholds
      · exact h.unused lock hlock
    refine ⟨fun t => ?_, fun t => ?_, fun lock _ => howner lock, h.underway, h.free⟩
    · show (threads t).Agrees _
      rw [hall t]
      trivial
    · show g.owner _ = some t ↔ (threads t).holds = true
      rw [howner, hall t]
      exact ⟨nofun, nofun⟩

/-- One step. -/
theorem step_inv {s s' : Pool T Pc (Shared T σ)} {a : T × Event}
    (h : Inv exec regs₀ s.threads s.shared) (hkeeps : KeepsLock s a)
    (hstep : s.step (move exec) a = some s') : Inv exec regs₀ s'.threads s'.shared := by
  obtain ⟨t, e⟩ := a
  obtain ⟨pc', g', hmove, rfl⟩ := Pool.step_cases hstep
  cases hpc : s.threads t with
  | outside =>
    simp only [hpc] at hmove
    cases e with
    | call op =>
      cases hmove
      exact h.choose hpc
    | setLockMode mode =>
      cases hmove
      show Inv exec regs₀ (Function.update s.threads t .outside) _
      rw [← hpc, Function.update_eq_self]
      exact h.setLockMode (hkeeps mode rfl)
    | run => cases hmove
  | chosen op lock =>
    simp only [hpc] at hmove
    cases e with
    | run =>
      simp only [move] at hmove
      split at hmove
      · next hfree =>
        cases hmove
        exact h.acquire hpc hfree
      · cases hmove
    | _ => cases hmove
  | inside op lock rest =>
    simp only [hpc] at hmove
    have hagrees := h.agrees t
    rw [hpc] at hagrees
    have hunderway : (s.threads t).underway = some (op.accesses, rest) := by rw [hpc]; rfl
    cases e with
    | run =>
      cases rest with
      | call c next =>
        cases hmove
        exact h.goOn hunderway rfl hagrees Section.step
      | ret result =>
        cases hmove
        exact h.goOn hunderway rfl ⟨hagrees, rfl⟩ id
    | _ => cases hmove
  | leaving op lock unlock result =>
    simp only [hpc] at hmove
    cases e with
    | run =>
      cases hmove
      exact h.release hpc
    | _ => cases hmove

theorem reach_locking {mode : Int} {s : Pool T Pc (Shared T σ)}
    (h : Reach (Pool.step (move exec)) KeepsLock (start mode regs₀) s) :
    Inv exec regs₀ s.threads s.shared :=
  h.invariant (I := fun s => Inv exec regs₀ s.threads s.shared) (start_inv mode)
    fun h hkeeps hstep => step_inv h hkeeps hstep

/-- Calls one after the other have all their effects. -/
theorem content_of_serial {w : Width} {addr : Iomem} {content : σ → BitVec w.bits}
    (hmem : RegMemory exec w addr content) :
    ∀ {log : List (Op × Result)} {regs : σ}, (∀ e ∈ log, e.1.Respects exec w addr content) →
      Serial exec regs₀ (performed log) regs →
      content regs = log.foldr (fun e => e.1.effect w addr) (content regs₀) := by
  intro log
  induction log with
  | nil => exact fun _ h => congrArg content h
  | cons e log ih =>
    rintro regs hlog ⟨regs₁, hserial, hrun⟩
    have hcontent := Op.content_accesses hmem (hlog e List.mem_cons_self) regs₁
    rw [hrun, ih (fun e he => hlog e (List.mem_cons_of_mem _ he)) hserial] at hcontent
    exact hcontent

/-- **Register sections.** As long as the lock in use changes only between calls: every
call releases the lock it has taken, no two calls are inside at once, and the completed
calls have taken effect one after the other, so that no masked update is lost. -/
theorem ga_reg_sections {p : Nat} {bus : Bus σ p} {info : IoaddrInfo σ p} {mode : Int}
    {s : Pool T Pc (Shared T σ)}
    (h : Reach (Pool.step (move (execReg bus info))) KeepsLock (start mode regs₀) s) :
    (∀ t op lock unlock result, s.threads t = .leaving op lock unlock result →
      unlock = lock ∧ s.shared.owner lock = some t) ∧
    (∀ t u, (s.threads t).holds = true → (s.threads u).holds = true → t = u) ∧
    ((∀ t, (s.threads t).holds = false) →
      Serial (execReg bus info) regs₀ (performed s.shared.log) s.shared.regs ∧
      ∀ w addr content, RegMemory (execReg bus info) w addr content →
        (∀ e ∈ s.shared.log, e.1.Respects (execReg bus info) w addr content) →
        content s.shared.regs =
          s.shared.log.foldr (fun e => e.1.effect w addr) (content regs₀)) := by
  have hinv := reach_locking h
  refine ⟨fun t op lock unlock result hpc => ?_, fun t u ht hu => hinv.inUse.exclusive ht hu,
    fun hnone => ?_⟩
  · have hagrees := hinv.agrees t
    have howner := hinv.inUse t
    rw [hpc] at hagrees howner
    obtain ⟨rfl, rfl⟩ := hagrees
    exact ⟨rfl, howner.mpr rfl⟩
  · have hserial := hinv.free hnone
    exact ⟨hserial, fun w addr content hmem hlog => content_of_serial hmem hlog hserial⟩

end System

/-! ## Two callers of one register -/

/-- Set one bit of the register. -/
def setBit (mask : BitVec 8) : Op := .write .w8 0 mask mask gaReadWriteAlways

/-- Take the lock, read, write, look at the mode, release. -/
def wholeCall (t : Bool) (op : Op) : List (Bool × Event) :=
  (t, .call op) :: List.replicate 5 (t, .run)

/-- The guard, for runs that never change the lock. -/
def sameLock (s : Pool Bool Pc (Shared Bool (BitVec 64))) (a : Bool × Event) : Bool :=
  match a.2 with
  | .setLockMode mode => lockOf mode = lockOf s.shared.gaLockMode
  | _ => true

theorem sameLock_sound (s : Pool Bool Pc (Shared Bool (BitVec 64))) (a : Bool × Event)
    (h : sameLock s a = true) : KeepsLock s a := by
  intro mode hmode
  rw [sameLock, hmode] at h
  exact Or.inl (of_decide_eq_true h)

/-- Both bits are set when the calls follow each other. -/
theorem ga_reg_sections_one_by_one :
    ∃ s, runFrom (checked (Pool.step (move (execReg singleRegister .zero))) sameLock)
        (start 0 0) (wholeCall true (setBit 1) ++ wholeCall false (setBit 2)) = some s ∧
      s.shared.regs.setWidth 8 = (3 : BitVec 8) := by
  obtain ⟨s, hrun, hnone, hlog⟩ : ∃ s,
      runFrom (checked (Pool.step (move (execReg singleRegister .zero))) sameLock)
        (start 0 0) (wholeCall true (setBit 1) ++ wholeCall false (setBit 2)) = some s ∧
      (∀ t, (s.threads t).holds = false) ∧
      s.shared.log = [(setBit 2, .modified .sure), (setBit 1, .modified .sure)] :=
    ⟨_, rfl, by decide, rfl⟩
  have hdocumented : Documented gaReadWriteAlways := Or.inr (by unfold ReadsFirst; decide)
  have hrespects : ∀ e ∈ s.shared.log, e.1.Respects (execReg singleRegister .zero) .w8 0
      fun s => s.setWidth 8 := by
    rw [hlog]
    rintro e (_ | ⟨_, _ | ⟨_, ⟨⟩⟩⟩) <;> exact ⟨hdocumented, Or.inl ⟨rfl, rfl⟩⟩
  have hcontent := ((ga_reg_sections (reach_checked sameLock_sound hrun)).2.2 hnone).2 .w8 0 _
    (singleRegister_memory .w8 0) hrespects
  refine ⟨s, hrun, hcontent.trans ?_⟩
  rw [hlog]
  decide

/-- The mode changes while the first call holds the spinlock: the second call takes the
mutex and both read 0. The first then sets bit 0, the second writes 2 over it, and the
first is about to release the mutex, which the second holds. -/
theorem ga_reg_sections_broken :
    ∃ s, runFrom (Pool.step (move (execReg singleRegister .zero))) (start 0 0)
        [(true, .call (setBit 1)), (true, .run), (false, .setLockMode 1),
          (false, .call (setBit 2)), (false, .run), (true, .run), (false, .run),
          (true, .run), (false, .run), (true, .run)] = some s ∧
      s.shared.regs = 2 ∧ (s.threads false).holds = true ∧ s.shared.owner .mutex = some false ∧
      s.threads true = .leaving (setBit 1) .spinlock .mutex (.modified .sure) :=
  ⟨_, rfl, rfl, rfl, rfl, rfl⟩

end LinuxDeviceDriver.Generic.Locking
