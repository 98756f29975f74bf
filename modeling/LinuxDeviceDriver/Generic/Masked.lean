import LinuxDeviceDriver.Generic.Access

/-!
# Masked updates of a register

For a register that behaves as memory (`RegMemory`), one call of `ga_reg_writeN`
changes the bits under the mask and no others, whichever way it is asked to do so.
`gaDefineRegWrite_content` says what is in the register afterwards, and
`gaDefineRegWrite_sound` what the return code tells about it.

`ga_reg_write_masked` puts both together for every width and every sequence of
calls.
-/

namespace LinuxDeviceDriver.Generic

open Lib

variable {σ : Type} {exec : (c : RegCmd) → σ → c.Answer × σ} {w : Width} {addr : Iomem}

/-- The register at `addr` behaves as memory: a read gives what is in it, a write
replaces it. -/
structure RegMemory (exec : (c : RegCmd) → σ → c.Answer × σ) (w : Width) (addr : Iomem)
    (content : σ → BitVec w.bits) : Prop where
  read : ∀ s, (exec (.read w addr) s).1 = content s
  read_keeps : ∀ s, content (exec (.read w addr) s).2 = content s
  write : ∀ v s, content (exec (.write w v addr) s).2 = v

/-- Accesses to the register at `addr` leave `content` alone. -/
structure Keeps {α : Type} (exec : (c : RegCmd) → σ → c.Answer × σ) (w : Width) (addr : Iomem)
    (content : σ → α) : Prop where
  read : ∀ s, content (exec (.read w addr) s).2 = content s
  write : ∀ v s, content (exec (.write w v addr) s).2 = content s

@[simp] theorem run_readReg (s : σ) :
    (readReg w addr).run exec s = exec (.read w addr) s := rfl

@[simp] theorem run_writeReg (val : BitVec w.bits) (s : σ) :
    (writeReg w val addr).run exec s = exec (.write w val addr) s := rfl

/-! ## Options -/

/-- One of the two read-modify-write options is given. -/
def ReadsFirst (options : BitVec 32) : Prop :=
  options &&& (gaReadWriteConditional ||| gaReadWriteAlways) ≠ 0

/-- One of the three documented options is given. -/
def Documented (options : BitVec 32) : Prop := options &&& gaWrite ≠ 0 ∨ ReadsFirst options

/-- What a documented call leaves in the register. -/
def updated {n : Nat} (options : BitVec 32) (old mask value : BitVec n) : BitVec n :=
  if options &&& gaWrite ≠ 0 then value &&& mask else merge old mask value

/-- What a return code tells about the content of a register. -/
structure Modified.Sound {α : Type} (rc : Modified) (old new : α) : Prop where
  none : rc = .none → new = old
  sure : rc = .sure → new ≠ old

/-! ## One call -/

section Write

variable {content : σ → BitVec w.bits} {all mask value : BitVec w.bits} {options : BitVec 32}

/-- The plain write. -/
theorem gaDefineRegWrite_plain (h : options &&& gaWrite ≠ 0 ∨ mask = all) (s : σ) :
    (gaDefineRegWrite w all addr mask value options).run exec s =
      (.maybe, (exec (.write w (value &&& mask) addr) s).2) := by
  rw [gaDefineRegWrite, if_pos h]
  rfl

/-- Read, merge, and write where something has changed or it is asked for. -/
theorem gaDefineRegWrite_readsFirst (h : ¬ (options &&& gaWrite ≠ 0 ∨ mask = all))
    (hreads : ReadsFirst options) (s : σ) :
    (gaDefineRegWrite w all addr mask value options).run exec s =
      let r := exec (.read w addr) s
      let newReg := merge r.1 mask value
      (if r.1 ≠ newReg then .sure else .none,
        if options &&& gaReadWriteAlways ≠ 0 ∨ r.1 ≠ newReg then
          (exec (.write w newReg addr) r.2).2
        else r.2) := by
  unfold ReadsFirst at hreads
  rw [gaDefineRegWrite, if_neg h, if_pos hreads, Prog.run_bind, run_readReg]
  dsimp only
  rw [Prog.run_ite]
  split
  · next hwrite => exact congrArg (Prod.mk _) (if_pos hwrite).symm
  · next hskip => exact congrArg (Prod.mk _) (if_neg hskip).symm

/-- Without any of the options nothing happens. -/
theorem gaDefineRegWrite_nothing (h : ¬ (options &&& gaWrite ≠ 0 ∨ mask = all))
    (hreads : ¬ ReadsFirst options) (s : σ) :
    (gaDefineRegWrite w all addr mask value options).run exec s = (.none, s) := by
  unfold ReadsFirst at hreads
  rw [gaDefineRegWrite, if_neg h, if_neg hreads]
  rfl

/-- The read-modify-write of a memory register. -/
theorem gaDefineRegWrite_merge (hmem : RegMemory exec w addr content)
    (h : ¬ (options &&& gaWrite ≠ 0 ∨ mask = all)) (hreads : ReadsFirst options)
    (value : BitVec w.bits) (s : σ) :
    ∃ s', (gaDefineRegWrite w all addr mask value options).run exec s =
        (if content s ≠ merge (content s) mask value then .sure else .none, s') ∧
      content s' = merge (content s) mask value := by
  rw [gaDefineRegWrite_readsFirst h hreads]
  simp only [hmem.read]
  refine ⟨_, rfl, ?_⟩
  split
  · rw [hmem.write, hmem.read]
  · next hskip =>
    rw [hmem.read_keeps]
    exact not_not.mp (not_or.mp hskip).2

/-- **What is in the register afterwards.** -/
theorem gaDefineRegWrite_content (hmem : RegMemory exec w addr content)
    (hall : all = BitVec.allOnes w.bits) (hoptions : Documented options)
    (mask value : BitVec w.bits) (s : σ) :
    content ((gaDefineRegWrite w all addr mask value options).run exec s).2 =
      updated options (content s) mask value := by
  unfold updated
  by_cases hplain : options &&& gaWrite ≠ 0 ∨ mask = all
  · rw [gaDefineRegWrite_plain hplain, hmem.write]
    split
    · rfl
    · next hwrite =>
      -- all bits are in the mask: the merged value is the written one
      rw [hplain.resolve_left hwrite, hall, merge_allOnes, BitVec.and_allOnes]
  · have hwrite := (not_or.mp hplain).1
    obtain ⟨s', hrun, hcontent⟩ :=
      gaDefineRegWrite_merge hmem hplain (hoptions.resolve_left hwrite) value s
    rw [hrun, if_neg hwrite]
    exact hcontent

/-- **What the return code tells.** -/
theorem gaDefineRegWrite_sound (hmem : RegMemory exec w addr content) {s s' : σ} {rc : Modified}
    (hrun : (gaDefineRegWrite w all addr mask value options).run exec s = (rc, s')) :
    rc.Sound (content s) (content s') := by
  by_cases hplain : options &&& gaWrite ≠ 0 ∨ mask = all
  · rw [gaDefineRegWrite_plain hplain] at hrun
    cases hrun
    exact ⟨nofun, nofun⟩
  · by_cases hreads : ReadsFirst options
    · obtain ⟨s₁, hmerge, hcontent⟩ := gaDefineRegWrite_merge hmem hplain hreads value s
      cases hmerge.symm.trans hrun
      rw [hcontent]
      split
      · next hne => exact ⟨nofun, fun _ => Ne.symm hne⟩
      · next heq => exact ⟨fun _ => (not_not.mp heq).symm, nofun⟩
    · rw [gaDefineRegWrite_nothing hplain hreads] at hrun
      cases hrun
      exact ⟨fun _ => rfl, nofun⟩

/-- A call leaves alone what its accesses leave alone. -/
theorem gaDefineRegWrite_keeps {α : Type} {other : σ → α} (hkeeps : Keeps exec w addr other)
    (all mask value : BitVec w.bits) (options : BitVec 32) (s : σ) :
    other ((gaDefineRegWrite w all addr mask value options).run exec s).2 = other s := by
  by_cases hplain : options &&& gaWrite ≠ 0 ∨ mask = all
  · rw [gaDefineRegWrite_plain hplain]
    exact hkeeps.write _ s
  · by_cases hreads : ReadsFirst options
    · rw [gaDefineRegWrite_readsFirst hplain hreads]
      dsimp only
      split
      · exact (hkeeps.write _ _).trans (hkeeps.read s)
      · exact hkeeps.read s
    · rw [gaDefineRegWrite_nothing hplain hreads]

end Write

theorem gaDefineRegRead_run {content : σ → BitVec w.bits} (hmem : RegMemory exec w addr content)
    (mask : BitVec w.bits) (s : σ) :
    ((gaDefineRegRead w addr mask).run exec s).1 = content s &&& mask := by
  show (exec (.read w addr) s).1 &&& mask = content s &&& mask
  rw [hmem.read]

/-! ## The members of the family -/

/-- With `CONFIG_64BIT` every member is the macro, with all bits of its width. -/
theorem gaRegWriteN_native (w : Width) :
    gaRegWriteN .native w = gaDefineRegWrite w (BitVec.allOnes w.bits) := by
  cases w <;> rfl

theorem gaRegReadN_native (w : Width) : gaRegReadN .native w = gaDefineRegRead w := by
  cases w <;> rfl

/-- The `access_size` of a width. -/
def Width.size (w : Width) : Int := w.bits

theorem widthOf_size (w : Width) : widthOf w.size = some w := by
  cases w <;> rfl

/-! ## Sequences of calls -/

/-- The arguments of a call of `ga_reg_write` but for the register. -/
structure MaskedWrite where
  mask : BitVec 64
  value : BitVec 64
  options : BitVec 32

/-- Calls of `ga_reg_write` for one register. -/
def gaRegWrites (config : Config) (addr : Iomem) (accessSize : Int) :
    List MaskedWrite → RegProg Unit
  | [] => return ()
  | u :: us => do
    let _ ← gaRegWrite config addr accessSize u.mask u.value u.options
    gaRegWrites config addr accessSize us

/-- A read-modify-write option is given, and not the plain write. -/
def ReadModifyWrite (options : BitVec 32) : Prop :=
  ReadsFirst options ∧ options &&& gaWrite = 0

theorem updated_of_readModifyWrite {n : Nat} {options : BitVec 32} (h : ReadModifyWrite options)
    (old mask value : BitVec n) : updated options old mask value = merge old mask value :=
  if_neg (not_not_intro h.2)

section Native

variable {content : σ → BitVec w.bits}

/-- One masked update, for each of the widths. -/
theorem gaRegWriteN_content (hmem : RegMemory exec w addr content) {options : BitVec 32}
    (hoptions : ReadModifyWrite options) (mask value : BitVec w.bits) (s : σ) :
    content ((gaRegWriteN .native w addr mask value options).run exec s).2 =
      merge (content s) mask value := by
  rw [gaRegWriteN_native, gaDefineRegWrite_content hmem rfl (Or.inr hoptions.1),
    updated_of_readModifyWrite hoptions]

theorem gaRegWrite_content (hmem : RegMemory exec w addr content) {u : MaskedWrite}
    (hoptions : ReadModifyWrite u.options) (s : σ) :
    content ((gaRegWrite .native addr w.size u.mask u.value u.options).run exec s).2 =
      merge (content s) (u.mask.setWidth w.bits) (u.value.setWidth w.bits) := by
  rw [gaRegWrite, widthOf_size]
  dsimp only
  rw [Prog.run_bind]
  exact gaRegWriteN_content hmem hoptions _ _ s

/-- The calls merge their updates one after the other. -/
theorem gaRegWrites_content (hmem : RegMemory exec w addr content) :
    ∀ {us : List MaskedWrite}, (∀ u ∈ us, ReadModifyWrite u.options) → ∀ s,
      content ((gaRegWrites .native addr w.size us).run exec s).2 =
        mergeAll (content s)
          (us.map fun u => (u.mask.setWidth w.bits, u.value.setWidth w.bits)) := by
  intro us
  induction us with
  | nil => exact fun _ _ => rfl
  | cons u us ih =>
    intro hus s
    rw [gaRegWrites, Prog.run_bind, ih fun x hx => hus x (List.mem_cons_of_mem _ hx),
      gaRegWrite_content hmem (hus u List.mem_cons_self)]
    rfl

/-- The bits `ga_reg_read` returns. -/
theorem gaRegRead_bits (hmem : RegMemory exec w addr content) (m : BitVec 64) (s : σ) :
    ∃ v s', (gaRegRead .native addr w.size m).run exec s = (.ok v, s') ∧
      ∀ i, v.getLsbD i = (decide (i < w.bits) && m.getLsbD i && (content s).getLsbD i) := by
  rw [gaRegRead, widthOf_size]
  dsimp only
  rw [Prog.run_bind, gaRegReadN_native, gaDefineRegRead_run hmem]
  refine ⟨_, _, rfl, fun i => ?_⟩
  have hbits : w.bits ≤ 64 := by cases w <;> decide
  rw [BitVec.getLsbD_setWidth, BitVec.getLsbD_and, BitVec.getLsbD_setWidth]
  by_cases hi : i < w.bits
  · rw [decide_eq_true hi, decide_eq_true (Nat.lt_of_lt_of_le hi hbits), Bool.true_and,
      Bool.true_and, Bool.and_comm]
  · rw [decide_eq_false hi, BitVec.getLsbD_of_ge _ _ (Nat.le_of_not_lt hi)]
    simp

end Native

/-- **Masked updates.** On a register that behaves as memory, a call with a
read-modify-write option replaces the bits under the mask, its return code is right, and
a sequence of calls leaves of every bit what the last call with the bit in its mask has
given. -/
theorem ga_reg_write_masked {p : Nat} {bus : Bus σ p} {info : IoaddrInfo σ p}
    {content : σ → BitVec w.bits} (hmem : RegMemory (execReg bus info) w addr content) :
    (∀ s mask value options, ReadModifyWrite options → ∃ rc s',
      (gaRegWriteN .native w addr mask value options).run (execReg bus info) s = (rc, s') ∧
      content s' = (content s &&& ~~~mask) ||| (value &&& mask) ∧
      rc.Sound (content s) (content s')) ∧
    (∀ s us m, (∀ u ∈ us, ReadModifyWrite u.options) → ∃ v s',
      (do gaRegWrites .native addr w.size us
          gaRegRead .native addr w.size m).run (execReg bus info) s = (.ok v, s') ∧
      ∀ i, v.getLsbD i = (decide (i < w.bits) && m.getLsbD i &&
        lastBit i ((content s).getLsbD i) (us.map fun u => (u.mask, u.value)))) := by
  constructor
  · intro s mask value options hoptions
    have hcontent := gaRegWriteN_content hmem hoptions mask value s
    rw [gaRegWriteN_native] at hcontent ⊢
    exact ⟨_, _, rfl, hcontent, gaDefineRegWrite_sound hmem rfl⟩
  · intro s us m hus
    obtain ⟨v, s', hread, hbits⟩ := gaRegRead_bits hmem m
      ((gaRegWrites .native addr w.size us).run (execReg bus info) s).2
    refine ⟨v, s', by rw [Prog.run_bind, hread], fun i => ?_⟩
    rw [hbits, gaRegWrites_content hmem hus, getLsbD_mergeAll]
    by_cases hi : i < w.bits
    · have hlast := lastBit_setWidth hi ((content s).getLsbD i)
        (us.map fun u => (u.mask, u.value))
      rw [List.map_map] at hlast
      rw [← hlast]
      rfl
    · rw [decide_eq_false hi]
      rfl

/-- One register of 64 bits, which narrower accesses see the lower part of. -/
def singleRegister : Bus (BitVec 64) 32 where
  rawRead := fun w _ s => (s.setWidth w.bits, s)
  rawWrite := fun _ val _ _ => val.setWidth 64
  pageSize := 4096
  vmallocToPage := fun _ => none

theorem singleRegister_memory (w : Width) (addr : Iomem) :
    RegMemory (execReg singleRegister .zero) w addr fun s => s.setWidth w.bits where
  read := by cases w <;> exact fun _ => rfl
  read_keeps := by cases w <;> exact fun _ => rfl
  write := by
    cases w <;> exact fun v _ => BitVec.setWidth_setWidth_of_le v (by decide)

theorem ga_reg_write_masked_nibble :
    ∃ rc s', (gaRegWriteN .native .w8 0 0x0f 0x35 gaReadWriteConditional).run
        (execReg singleRegister .zero) 0xa0 = (rc, s') ∧
      s'.setWidth 8 = (0xa5 : BitVec 8) ∧ rc ≠ .none := by
  obtain ⟨rc, s', hrun, hcontent, hsound⟩ :=
    (ga_reg_write_masked (singleRegister_memory .w8 0)).1 0xa0 0x0f 0x35
      gaReadWriteConditional ⟨by unfold ReadsFirst; decide, by decide⟩
  refine ⟨rc, s', hrun, hcontent, fun hrc => ?_⟩
  have hsame := hcontent.symm.trans (hsound.none hrc)
  exact absurd hsame (by decide)

end LinuxDeviceDriver.Generic
