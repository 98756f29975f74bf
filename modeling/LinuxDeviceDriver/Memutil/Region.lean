import LinuxDeviceDriver.Lib.BitMask
import LinuxDeviceDriver.Memutil.Transfer

/-!
# Saving and loading a region of memory: `mem_ops.c`

`save_mem_region_to_file` and `load_mem_region_from_file` map the pages around a region of
physical memory and move the region to or from a file. The region is given in 64-bit numbers;
`size_t` and `off_t` may be narrower.

`mmap` of `/dev/mem` shows the pages at the offset it receives, as a 64-bit number, or it fails.
It refuses an empty range, an offset inside a page, and a range that goes over the end of the
address space. A pointer into the mapping is the physical address it shows.

What is received is not always what is passed. Where pointers are narrower than 64 bits the source
calls `mmap64`, which `<sys/mman.h>` declares only under a feature macro; neither the source nor
the Makefile sets one. Without the declaration one word is passed where two are read
(`OffsetArg.undeclared`).
-/

namespace LinuxDeviceDriver.Memutil

open Lib

/-! ## Parameters -/

/-- The widths of `size_t` and `off_t`, and the page size, an `int`. -/
structure Machine where
  size : Width
  off : Width
  pageShift : Nat
  pageFits : pageShift < 31

/-- `getpagesize()` -/
def Machine.pageSize (m : Machine) : Nat := 2 ^ m.pageShift

/-- The command line options of `struct working_params`. -/
structure WorkingParams where
  startPhyAddr : Fin (2 ^ 64)
  length : Fin (2 ^ 64)
  saveToFile : Bool
  loadFromFile : Bool
  filePath : Option String

/-- `check_paras`, with the text that is printed before it returns -1. -/
def checkParas (p : WorkingParams) : Except String Unit :=
  if p.length = 0 then .error "length of memory region must be specified.\n"
  else if ¬ p.saveToFile ∧ ¬ p.loadFromFile then
    .error "action must be specified: --save-to-file or --load-from-file.\n"
  else if p.saveToFile ∧ p.loadFromFile then
    .error "only one action can be specified: --save-to-file or --load-from-file.\n"
  else if p.filePath.isNone then
    .error "file path for save to or load from must be specified.\n"
  else .ok ()

/-! ## Mapping -/

/-- Pages of physical memory, from `phys` on. -/
structure Mapping where
  phys : Nat
  len : Nat
deriving DecidableEq

/-- `mmap` of `/dev/mem` at the offset `phys`; `ok` says whether it succeeds otherwise. -/
def mmapPages (m : Machine) (phys len : Nat) (ok : Bool) : Option Mapping :=
  let len := len % 2 ^ m.size.bits
  if ok ∧ phys % m.pageSize = 0 ∧ 0 < len ∧ phys + len ≤ 2 ^ 64 then some ⟨phys, len⟩ else none

/-- How the offset gets to the function that maps: it is declared, or it is not and reads `slot`,
the 64 bits that happen to be where its last argument should be. -/
inductive OffsetArg
  | declared
  | undeclared (slot : Fin (2 ^ 64))

/-- The offset that is received for `(off_t)phy_addr`. -/
def OffsetArg.received (arg : OffsetArg) (m : Machine) (phyAddr : Nat) : Nat :=
  match arg with
  -- an `off_t` is converted to the 64 bits that `mmap64` takes
  | .declared => Width.w64.unsigned (m.off.signed phyAddr)
  | .undeclared slot => slot

/-- `map_memory_fixed`; `ok` says whether `open` and `mmap` succeed otherwise. -/
def mapMemoryFixed (m : Machine) (phyAddr len : Nat) (arg : OffsetArg) (ok : Bool) :
    Option Mapping :=
  mmapPages m (arg.received m phyAddr) len ok

section Map

variable (m : Machine) (p : WorkingParams)

/-- `phy_addr_for_map &= ~((unsigned long long)page_size-1)` -/
def phyAddrForMap : Nat := p.startPhyAddr &&& (2 ^ 64 - 1 - (m.pageSize - 1))

/-- `length_for_map`, in 64 bits. -/
def lengthForMap : Nat :=
  let len := (p.length + (p.startPhyAddr - phyAddrForMap m p)) % 2 ^ 64
  (len + m.pageSize - 1) % 2 ^ 64 / m.pageSize * m.pageSize % 2 ^ 64

/-- `map_memory`: the mapping and `vaddr`. -/
def mapMemory (arg : OffsetArg) (ok : Bool) : Option (Mapping × Nat) :=
  (mapMemoryFixed m (phyAddrForMap m p) (lengthForMap m p) arg ok).map fun map =>
    (map, (map.phys + toInt32 (p.startPhyAddr - phyAddrForMap m p : Nat)).toNat)

end Map

/-! ## Saving and loading -/

/-- How the system calls go. -/
structure Calls where
  offset : OffsetArg
  mapOk : Bool
  openOk : Bool
  io : List Io

/-- The return value, the pages that were mapped, the addresses `first..last` that were moved,
and the file or the memory. -/
structure Outcome (σ : Type) where
  ret : Int
  mapping : Option Mapping
  first : Nat
  last : Nat
  state : σ
deriving DecidableEq

/-- What both functions do: map the pages, open the file, move `(size_t)length` bytes, and compare
what has been moved with that. Before the file is open it is `old`. -/
def moveRegion {σ : Type} (m : Machine) (p : WorkingParams) (calls : Calls) (old : σ)
    (move : Nat → Nat → List Io → Option (Int × σ × Nat)) : Option (Outcome σ) :=
  match mapMemory m p calls.offset calls.mapOk with
  | none => some ⟨-1, none, 0, 0, old⟩
  | some (map, vaddr) =>
    if calls.openOk then
      (move vaddr (m.size.unsigned p.length) calls.io).map fun (cnt, s, last) =>
        if cnt < 0 then ⟨-1, some map, vaddr, last, s⟩
        else if m.size.unsigned cnt ≠ m.size.unsigned p.length then ⟨-1, some map, vaddr, last, s⟩
        else ⟨0, some map, vaddr, last, s⟩
    else some ⟨-1, some map, vaddr, vaddr, old⟩

/-- `save_mem_region_to_file`; opening the file truncates it. -/
def saveMemRegionToFile (m : Machine) (p : WorkingParams) (mem : Nat → Byte) (file : List Byte)
    (calls : Calls) : Option (Outcome (List Byte)) :=
  moveRegion m p calls file fun vaddr count io => safeWrite m.size mem [] vaddr count io

/-- `load_mem_region_from_file`, with the position in the file. -/
def loadMemRegionFromFile (m : Machine) (p : WorkingParams) (mem : Nat → Byte) (file : List Byte)
    (calls : Calls) : Option (Outcome ((Nat → Byte) × Nat)) :=
  moveRegion m p calls (mem, 0) fun vaddr count io => safeRead m.size mem file vaddr count io

/-! ## The pages around the region -/

section Pages

variable (m : Machine) (p : WorkingParams)

theorem Machine.pageSize_pos : 0 < m.pageSize := Nat.two_pow_pos _

theorem Machine.pageSize_le : m.pageSize ≤ 2 ^ 30 :=
  Nat.pow_le_pow_right (by decide) (Nat.le_of_lt_succ m.pageFits)

/-- The address is rounded down to a page. -/
theorem phyAddrForMap_eq :
    phyAddrForMap m p = m.pageSize * (p.startPhyAddr / m.pageSize) := by
  have hshift : m.pageShift + (64 - m.pageShift) = 64 := by
    have := m.pageFits
    omega
  have hmask : 2 ^ 64 - 1 - (m.pageSize - 1) = (2 ^ (64 - m.pageShift) - 1) <<< m.pageShift := by
    rw [Nat.shiftLeft_eq, Nat.sub_mul, Nat.one_mul, ← Nat.pow_add, Nat.add_comm, hshift]
    have := m.pageSize_pos
    show _ = 2 ^ 64 - m.pageSize
    omega
  unfold phyAddrForMap
  rw [hmask, and_upper (by rw [hshift]; exact p.startPhyAddr.isLt)]
  rfl

/-- Where the region starts in its first page. -/
def pageOffset : Nat := p.startPhyAddr % m.pageSize

theorem phyAddrForMap_add : phyAddrForMap m p + pageOffset m p = p.startPhyAddr := by
  rw [phyAddrForMap_eq]
  exact Nat.div_add_mod ..

theorem pageOffset_lt : pageOffset m p < m.pageSize := Nat.mod_lt _ m.pageSize_pos

theorem start_sub_base : (p.startPhyAddr : Nat) - phyAddrForMap m p = pageOffset m p := by
  have := phyAddrForMap_add m p
  omega

/-- Rounding up to whole pages. -/
def Machine.roundUp (n : Nat) : Nat := (n + m.pageSize - 1) / m.pageSize * m.pageSize

theorem Machine.le_roundUp (n : Nat) : n ≤ m.roundUp n := by
  have hpos := m.pageSize_pos
  have hdiv := Nat.div_add_mod (n + m.pageSize - 1) m.pageSize
  have hmod := Nat.mod_lt (n + m.pageSize - 1) hpos
  unfold roundUp
  rw [Nat.mul_comm]
  omega

theorem Machine.roundUp_lt (n : Nat) : m.roundUp n < n + m.pageSize := by
  have hpos := m.pageSize_pos
  have hle := Nat.div_mul_le_self (n + m.pageSize - 1) m.pageSize
  unfold roundUp
  omega

variable {m p}

/-- A length in the lower half of `size_t` is mapped with its offset, in whole pages: nothing
wraps around. -/
theorem lengthForMap_mod (h : (p.length : Nat) < 2 ^ (m.size.bits - 1)) :
    lengthForMap m p % 2 ^ m.size.bits = m.roundUp (p.length + pageOffset m p) := by
  have hoff := pageOffset_lt m p
  have hpage := m.pageSize_le
  have hround := m.roundUp_lt (p.length + pageOffset m p)
  have hsmall : m.roundUp (p.length + pageOffset m p) < 2 ^ m.size.bits ∧
      (p.length : Nat) + pageOffset m p + m.pageSize < 2 ^ 64 ∧
      m.roundUp (p.length + pageOffset m p) < 2 ^ 64 := by
    cases hsize : m.size <;> rw [hsize] at h <;> simp only [Width.bits] at h ⊢ <;> omega
  unfold lengthForMap
  rw [start_sub_base]
  dsimp only
  rw [Nat.mod_eq_of_lt (a := p.length + pageOffset m p) (by omega),
    Nat.mod_eq_of_lt (a := p.length + pageOffset m p + m.pageSize - 1) (by omega)]
  show m.roundUp (p.length + pageOffset m p) % 2 ^ 64 % 2 ^ m.size.bits = _
  rw [Nat.mod_eq_of_lt hsmall.2.2, Nat.mod_eq_of_lt hsmall.1]

/-- `off_t` has the address of the first page, in two's complement. -/
def OffFits (m : Machine) (p : WorkingParams) : Prop :=
  m.off = .w64 ∨ phyAddrForMap m p < 2 ^ 31 ∨ 2 ^ 64 - 2 ^ 31 ≤ phyAddrForMap m p

/-- The first page's address arrives: a declared function gets it exactly when `off_t` has it. -/
def Arrives (m : Machine) (p : WorkingParams) : OffsetArg → Prop
  | .declared => OffFits m p
  | .undeclared slot => slot = phyAddrForMap m p

theorem offset_eq_iff :
    Width.w64.unsigned (m.off.signed (phyAddrForMap m p)) = phyAddrForMap m p ↔ OffFits m p := by
  have hlt : phyAddrForMap m p < 2 ^ 64 := by
    have := phyAddrForMap_add m p
    have := p.startPhyAddr.isLt
    omega
  unfold OffFits
  generalize phyAddrForMap m p = base at hlt ⊢
  cases m.off with
  | w64 =>
    rw [Width.unsigned_signed, Width.unsigned_of_lt _ hlt]
    exact iff_of_true rfl (Or.inl rfl)
  | w32 =>
    unfold Width.unsigned Width.signed
    simp only [Width.bits, Int.bmod_def, reduceCtorEq, false_or]
    split <;> omega

theorem received_eq_iff (arg : OffsetArg) :
    arg.received m (phyAddrForMap m p) = phyAddrForMap m p ↔ Arrives m p arg := by
  cases arg with
  | declared => exact offset_eq_iff
  | undeclared slot => exact Iff.rfl

end Pages

end LinuxDeviceDriver.Memutil
