import LinuxDeviceDriver.Generic.Access

/-!
# Hooked registers: `ga_set_phys_addr_ops`

A driver may hand over two functions, `read8` and `write8`, for a range of physical
addresses; an 8-bit access that falls into the range goes to them in place of the bus.
Reading and writing look the address up separately, in `ga_raw_readb` and `ga_raw_writeb`,
with one test of the range.

Which way an access has gone is observed on hooks and a bus that keep a record
(`IoaddrOps.logged`, `Bus.logged`); the record changes nothing else (`execReg_logged`).
`ga_hooks_honoured_iff` compares the record with the range in natural numbers. The test is
made in `phys_addr_t`: a range that ends at the top of the address space has the end 0, and
no address is below that.
-/

namespace LinuxDeviceDriver.Generic

open Lib

/-! ## A record of where accesses go -/

/-- Where an access goes: to the hooks with a physical address, or to the bus. -/
inductive Backend (p : Nat)
  | hooks (addr : BitVec p)
  | bus (ioaddr : Iomem)
deriving DecidableEq

section Logged

variable {σ : Type} {p : Nat}

def Bus.logged (bus : Bus σ p) : Bus (σ × List (Backend p)) p where
  rawRead w ioaddr s :=
    let r := bus.rawRead w ioaddr s.1
    (r.1, r.2, s.2 ++ [.bus ioaddr])
  rawWrite w val ioaddr s := (bus.rawWrite w val ioaddr s.1, s.2 ++ [.bus ioaddr])
  pageSize := bus.pageSize
  vmallocToPage := bus.vmallocToPage

/-- `init` is no access, and leaves no record. -/
def IoaddrOps.logged (ops : IoaddrOps σ p) : IoaddrOps (σ × List (Backend p)) p where
  init := ops.init.map fun init addr size s =>
    let r := init addr size s.1
    (r.1, r.2, s.2)
  read8 := ops.read8.map fun read8 addr s =>
    let r := read8 addr s.1
    (r.1, r.2, s.2 ++ [.hooks addr])
  write8 := ops.write8.map fun write8 val addr s =>
    (write8 val addr s.1, s.2 ++ [.hooks addr])

def IoaddrInfo.logged (info : IoaddrInfo σ p) : IoaddrInfo (σ × List (Backend p)) p :=
  ⟨info.addr, info.size, info.ops.logged⟩

/-- Where the accesses of a program go. -/
def trace {α : Type} (bus : Bus σ p) (info : IoaddrInfo σ p) (prog : RegProg α) (s : σ) :
    List (Backend p) :=
  (prog.run (execReg bus.logged info.logged) (s, [])).2.2

/-- The lookup does not depend on the record. -/
theorem gaIoaddrToPhys_logged (bus : Bus σ p) (info : IoaddrInfo σ p) (ioaddr : Iomem) :
    gaIoaddrToPhys bus.logged info.logged ioaddr = gaIoaddrToPhys bus info ioaddr := rfl

theorem IoaddrInfo.logged_read8 (info : IoaddrInfo σ p) :
    info.logged.ops.read8 = info.ops.read8.map fun read8 addr s =>
      ((read8 addr s.1).1, (read8 addr s.1).2, s.2 ++ [.hooks addr]) := rfl

theorem IoaddrInfo.logged_write8 (info : IoaddrInfo σ p) :
    info.logged.ops.write8 = info.ops.write8.map fun write8 val addr s =>
      (write8 val addr s.1, s.2 ++ [.hooks addr]) := rfl

/-- Keeping a record changes neither the answers nor the state. -/
theorem execReg_logged (bus : Bus σ p) (info : IoaddrInfo σ p) (c : RegCmd) (s : σ)
    (log : List (Backend p)) :
    ((execReg bus.logged info.logged c (s, log)).1,
      (execReg bus.logged info.logged c (s, log)).2.1) = execReg bus info c s := by
  cases c with
  | read w addr =>
    cases w with
    | w8 =>
      simp only [execReg, gaRawReadb, gaIoaddrToPhys_logged, IoaddrInfo.logged_read8]
      cases info.ops.read8 with
      | none => rfl
      | some read8 => rcases gaIoaddrToPhys bus info addr with _ | _ | _ <;> rfl
    | w16 | w32 | w64 => rfl
  | write w val addr =>
    cases w with
    | w8 =>
      simp only [execReg, gaRawWriteb, gaIoaddrToPhys_logged, IoaddrInfo.logged_write8]
      cases info.ops.write8 with
      | none => rfl
      | some write8 => rcases gaIoaddrToPhys bus info addr with _ | _ | _ <;> rfl
    | w16 | w32 | w64 => rfl

end Logged

/-! ## The range -/

section Range

variable {σ : Type} {p : Nat} {bus : Bus σ p} {info : IoaddrInfo σ p} {ioaddr : Iomem}
  {page : BitVec p}

/-- The physical address behind `ioaddr`, in the page `page`. -/
def physAddr (bus : Bus σ p) (page : BitVec p) (ioaddr : Iomem) : BitVec p :=
  page + BitVec.ofNat p (ioaddr % bus.pageSize)

/-- `x` is one of the `size` addresses from `addr` on. -/
def InRange (addr size x : BitVec p) : Prop :=
  addr.toNat ≤ x.toNat ∧ x.toNat < addr.toNat + size.toNat

instance (addr size x : BitVec p) : Decidable (InRange addr size x) :=
  inferInstanceAs (Decidable (_ ∧ _))

/-- The range ends at the top of the address space and has `x` in it. -/
def TopOfRange (addr size x : BitVec p) : Prop :=
  addr.toNat + size.toNat = 2 ^ p ∧ addr.toNat ≤ x.toNat

/-- The test of the source is the range, unless its end is 0. -/
theorem range_test_iff {addr size x : BitVec p} (hrange : addr.toNat + size.toNat ≤ 2 ^ p) :
    ((x ≥ addr ∧ x < addr + size) ↔ InRange addr size x) ↔ ¬ TopOfRange addr size x := by
  have hx := x.isLt
  simp only [ge_iff_le, BitVec.le_def, BitVec.lt_def, BitVec.toNat_add, InRange, TopOfRange]
  rcases Nat.lt_or_eq_of_le hrange with hlt | htop
  · rw [Nat.mod_eq_of_lt hlt]
    exact iff_of_true Iff.rfl fun h => absurd h.1 (Nat.ne_of_lt hlt)
  · rw [htop, Nat.mod_self]
    constructor
    · rintro hiff ⟨-, hle⟩
      exact absurd (hiff.mpr ⟨hle, hx⟩).2 (Nat.not_lt_zero _)
    · intro hnot
      exact iff_of_false (fun h => Nat.not_lt_zero _ h.2) fun h => hnot ⟨rfl, h.1⟩

end Range

/-! ## Dispatch -/

section Dispatch

variable {σ : Type} {p : Nat} {bus : Bus σ p} {info : IoaddrInfo σ p} {ioaddr : Iomem}
  {page : BitVec p}

/-- An 8-bit access to `ioaddr`. -/
def At8 (ioaddr : Iomem) (c : RegCmd) : Prop :=
  c = .read .w8 ioaddr ∨ ∃ val, c = .write .w8 val ioaddr

/-- The way the test of the source sends an access to the physical address `x`. -/
def routed (info : IoaddrInfo σ p) (x : BitVec p) (ioaddr : Iomem) : Backend p :=
  if x ≥ info.addr ∧ x < info.addr + info.size then .hooks x else .bus ioaddr

theorem gaIoaddrToPhys_mapped (hpage : bus.vmallocToPage ioaddr = some page) :
    gaIoaddrToPhys bus info ioaddr =
      if physAddr bus page ioaddr ≥ info.addr ∧
          physAddr bus page ioaddr < info.addr + info.size then
        .ok (some (physAddr bus page ioaddr))
      else .ok none := by
  unfold gaIoaddrToPhys
  rw [hpage]
  rfl

/-- With both hooks, reading and writing go the same way. -/
theorem execReg_routed (hread : info.ops.read8.isSome = true)
    (hwrite : info.ops.write8.isSome = true) (hpage : bus.vmallocToPage ioaddr = some page)
    {c : RegCmd} (hc : At8 ioaddr c) (s : σ × List (Backend p)) :
    (execReg bus.logged info.logged c s).2.2 =
      s.2 ++ [routed info (physAddr bus page ioaddr) ioaddr] := by
  obtain ⟨read8, hread⟩ := Option.isSome_iff_exists.mp hread
  obtain ⟨write8, hwrite⟩ := Option.isSome_iff_exists.mp hwrite
  rcases hc with rfl | ⟨val, rfl⟩
  · simp only [execReg, gaRawReadb, gaIoaddrToPhys_logged, gaIoaddrToPhys_mapped hpage,
      IoaddrInfo.logged_read8, hread, Option.map_some, routed]
    by_cases htest : physAddr bus page ioaddr ≥ info.addr ∧
        physAddr bus page ioaddr < info.addr + info.size
    · rw [if_pos htest, if_pos htest]
    · rw [if_neg htest, if_neg htest]
      rfl
  · simp only [execReg, gaRawWriteb, gaIoaddrToPhys_logged, gaIoaddrToPhys_mapped hpage,
      IoaddrInfo.logged_write8, hwrite, Option.map_some, routed]
    by_cases htest : physAddr bus page ioaddr ≥ info.addr ∧
        physAddr bus page ioaddr < info.addr + info.size
    · rw [if_pos htest, if_pos htest]
    · rw [if_neg htest, if_neg htest]
      rfl

/-- All accesses of `ga_reg_write8` are 8-bit accesses to its address. -/
theorem gaRegWrite8_all (ioaddr : Iomem) (mask value : BitVec 8) (options : BitVec 32) :
    (gaRegWrite8 ioaddr mask value options).All (At8 ioaddr) := by
  have hread : (readReg .w8 ioaddr).All (At8 ioaddr) := ⟨.inl rfl, fun _ => trivial⟩
  have hwrite : ∀ val, (writeReg .w8 val ioaddr).All (At8 ioaddr) :=
    fun val => ⟨.inr ⟨val, rfl⟩, fun _ => trivial⟩
  unfold gaRegWrite8 gaDefineRegWrite
  split
  · exact (hwrite _).bind fun _ => trivial
  split
  · refine hread.bind fun oldReg => ?_
    dsimp only
    split
    · exact (hwrite _).bind fun _ => trivial
    · trivial
  · trivial

/-- So a read-modify-write goes one way, whatever the range is. -/
theorem gaRegWrite8_one_way (hread : info.ops.read8.isSome = true)
    (hwrite : info.ops.write8.isSome = true) (hpage : bus.vmallocToPage ioaddr = some page)
    (mask value : BitVec 8) (options : BitVec 32) (s : σ) :
    ∀ b ∈ trace bus info (gaRegWrite8 ioaddr mask value options) s,
      b = routed info (physAddr bus page ioaddr) ioaddr := by
  have hall := gaRegWrite8_all ioaddr mask value options
  refine hall.run_keeps (I := fun s : σ × List (Backend p) =>
    ∀ b ∈ s.2, b = routed info (physAddr bus page ioaddr) ioaddr) ?_ ?_
  · intro c hc s hs
    rw [execReg_routed hread hwrite hpage hc]
    intro b hb
    rcases List.mem_append.mp hb with hb | hb
    · exact hs b hb
    · exact List.mem_singleton.mp hb
  · exact fun b hb => absurd hb List.not_mem_nil

end Dispatch

/-! ## Registrations -/

section Registration

variable {σ : Type} {p : Nat} {bus : Bus σ p} {ioaddr : Iomem} {page : BitVec p}
  {addr size : BitVec p} {ops : IoaddrOps σ p} {s₀ : σ}

/-- The way an access should go. -/
def wanted (addr size x : BitVec p) (ioaddr : Iomem) : Backend p :=
  if InRange addr size x then .hooks x else .bus ioaddr

/-- 8-bit accesses to `ioaddr`, which is mapped to `x`, go to the hooks exactly when `x` is in
the range, alone and inside of `ga_reg_write8`. -/
structure Honoured (bus : Bus σ p) (info : IoaddrInfo σ p) (addr size x : BitVec p)
    (ioaddr : Iomem) : Prop where
  read : ∀ s, trace bus info (readReg .w8 ioaddr) s = [wanted addr size x ioaddr]
  write : ∀ val s, trace bus info (writeReg .w8 val ioaddr) s = [wanted addr size x ioaddr]
  modify : ∀ mask value options s,
    ∀ b ∈ trace bus info (gaRegWrite8 ioaddr mask value options) s,
      b = wanted addr size x ioaddr

/-- What a successful registration leaves in `addr_info`. -/
theorem gaSetPhysAddrOps_info (h : (gaSetPhysAddrOps addr size (some ops) s₀).1 = 0) :
    (gaSetPhysAddrOps addr size (some ops) s₀).2.1 = ⟨addr, size, ops⟩ := by
  unfold gaSetPhysAddrOps at h ⊢
  dsimp only at h ⊢
  split
  · rfl
  · next init hinit =>
    rw [hinit] at h
    dsimp only at h ⊢
    split
    · next hret =>
      rw [if_pos hret] at h
      exact absurd h hret
    · rfl

theorem routed_eq_wanted_iff {x : BitVec p} :
    routed ⟨addr, size, ops⟩ x ioaddr = wanted addr size x ioaddr ↔
      ((x ≥ addr ∧ x < addr + size) ↔ InRange addr size x) := by
  unfold routed wanted
  by_cases htest : x ≥ addr ∧ x < addr + size
  · by_cases hin : InRange addr size x
    · rw [if_pos htest, if_pos hin]
      exact iff_of_true rfl (iff_of_true htest hin)
    · rw [if_pos htest, if_neg hin]
      exact iff_of_false (fun heq => by cases heq) fun h => hin (h.mp htest)
  · by_cases hin : InRange addr size x
    · rw [if_neg htest, if_pos hin]
      exact iff_of_false (fun heq => by cases heq) fun h => htest (h.mpr hin)
    · rw [if_neg htest, if_neg hin]
      exact iff_of_true rfl (iff_of_false htest hin)

/-- **Hooked ranges are honoured unless they end at the top of the address space**: for every
successful registration of both hooks for a range inside of the address space, and every mapped
address. -/
theorem ga_hooks_honoured_iff (hread : ops.read8.isSome = true)
    (hwrite : ops.write8.isSome = true)
    (hinit : (gaSetPhysAddrOps addr size (some ops) s₀).1 = 0)
    (hrange : addr.toNat + size.toNat ≤ 2 ^ p) (hpage : bus.vmallocToPage ioaddr = some page) :
    Honoured bus (gaSetPhysAddrOps addr size (some ops) s₀).2.1 addr size
        (physAddr bus page ioaddr) ioaddr ↔
      ¬ TopOfRange addr size (physAddr bus page ioaddr) := by
  rw [gaSetPhysAddrOps_info hinit, ← range_test_iff hrange, ← routed_eq_wanted_iff]
  have hroute := @execReg_routed σ p bus ⟨addr, size, ops⟩ ioaddr page hread hwrite hpage
  constructor
  · intro h
    have hlog := hroute (.inl rfl) (s₀, [])
    exact List.singleton_inj.mp (hlog.symm.trans (h.read s₀))
  · intro heq
    refine ⟨fun s => ?_, fun val s => ?_, fun mask value options s b hb => ?_⟩
    · rw [← heq]
      exact hroute (.inl rfl) (s, [])
    · rw [← heq]
      exact hroute (.inr ⟨val, rfl⟩) (s, [])
    · rw [← heq]
      exact gaRegWrite8_one_way hread hwrite hpage mask value options s b hb

end Registration

/-- A bus with nothing on it, where every address is mapped to itself. -/
def flatBus : Bus Unit 32 where
  rawRead _ _ _ := (0, ())
  rawWrite _ _ _ _ := ()
  pageSize := 4096
  vmallocToPage ioaddr := some (BitVec.ofNat 32 (ioaddr / 4096 * 4096))

def bothHooks : IoaddrOps Unit 32 := ⟨none, some fun _ _ => (0x5a, ()), some fun _ _ _ => ()⟩

/-- One page, and an address in it. -/
theorem ga_hooks_honoured_page :
    Honoured flatBus (gaSetPhysAddrOps 0x10000000 0x1000 (some bothHooks) ()).2.1 0x10000000 0x1000
        (physAddr flatBus 0x10000000 0x10000010) 0x10000010 ∧
      InRange (p := 32) 0x10000000 0x1000 0x10000010 := by
  refine ⟨(ga_hooks_honoured_iff rfl rfl rfl (by decide) rfl).mpr fun h => ?_, by decide⟩
  exact absurd h.1 (by decide)

/-- The last page of the address space: an access in the middle of it goes to the bus. -/
theorem ga_hooks_top_page_missed :
    (gaSetPhysAddrOps 0xfffff000 0x1000 (some bothHooks) ()).1 = 0 ∧
      InRange (p := 32) 0xfffff000 0x1000 (physAddr flatBus 0xfffff000 0xfffff010) ∧
      trace flatBus (gaSetPhysAddrOps 0xfffff000 0x1000 (some bothHooks) ()).2.1
        (readReg .w8 0xfffff010) () = [.bus 0xfffff010] :=
  ⟨rfl, by decide, by decide⟩

end LinuxDeviceDriver.Generic
