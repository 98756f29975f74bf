import LinuxDeviceDriver.Lib.BitMask
import LinuxDeviceDriver.Lib.Program
import LinuxDeviceDriver.Kernel

/-!
# Register access: `generic_access.c`

All drivers of the repository go through these functions to read and write device
registers. A call is a program of single accesses (`RegProg`); what an access does
is up to the bus (`Bus`) and, for 8-bit accesses, to the hooks that a driver may
have installed for a physical address range (`ga_set_phys_addr_ops`).

The functions are macros of the source, instantiated once per width
(`gaDefineRegWrite`, `gaDefineRegRead`). The 64-bit functions exist twice: a build
without `CONFIG_64BIT` puts them together from two 32-bit accesses (`Config`).

Every function runs under a lock, which is the subject of `Generic.Locking`; here
a call is looked at on its own.
-/

namespace LinuxDeviceDriver.Generic

open Lib

/-! ## Accesses -/

/-- `void __iomem *`. -/
abbrev Iomem := Nat

/-- The widths a register can have. -/
inductive Width
  | w8
  | w16
  | w32
  | w64
deriving DecidableEq, Repr

abbrev Width.bits : Width → Nat
  | w8 => 8
  | w16 => 16
  | w32 => 32
  | w64 => 64

/-- One access to a register. -/
inductive RegCmd
  | read (w : Width) (addr : Iomem)
  | write (w : Width) (val : BitVec w.bits) (addr : Iomem)

abbrev RegCmd.Answer : RegCmd → Type
  | read w _ => BitVec w.bits
  | write _ _ _ => Unit

/-- A program of register accesses. -/
abbrev RegProg := Prog RegCmd RegCmd.Answer

def readReg (w : Width) (addr : Iomem) : RegProg (BitVec w.bits) := .call (.read w addr) .ret

def writeReg (w : Width) (val : BitVec w.bits) (addr : Iomem) : RegProg Unit :=
  .call (.write w val addr) .ret

/-- The hardware as the kernel reaches it: `__raw_readb` to `__raw_readq`, `__raw_writeb` to
`__raw_writeq`, and the pages behind `ioremap`ed addresses (`page_to_phys` of
`vmalloc_to_page`). `p` is the width of `phys_addr_t`. -/
structure Bus (σ : Type) (p : Nat) where
  rawRead : (w : Width) → Iomem → σ → BitVec w.bits × σ
  rawWrite : (w : Width) → BitVec w.bits → Iomem → σ → σ
  pageSize : Nat
  vmallocToPage : Iomem → Option (BitVec p)

/-! ## Hooks -/

/-- `struct ga_ioaddr_ops`; the callbacks know their opaque pointer. -/
structure IoaddrOps (σ : Type) (p : Nat) where
  init : Option (BitVec p → BitVec p → σ → Int × σ)
  read8 : Option (BitVec p → σ → BitVec 8 × σ)
  write8 : Option (BitVec 8 → BitVec p → σ → σ)

/-- `struct ga_ioaddr_info`. -/
structure IoaddrInfo (σ : Type) (p : Nat) where
  addr : BitVec p
  size : BitVec p
  ops : IoaddrOps σ p

/-- `addr_info` at module load, and after `memset`. -/
def IoaddrInfo.zero {σ : Type} {p : Nat} : IoaddrInfo σ p := ⟨0, 0, ⟨none, none, none⟩⟩

section Hooks

variable {σ : Type} {p : Nat}

/-- `ga_set_phys_addr_ops`: the result, and what it leaves in `addr_info`. -/
def gaSetPhysAddrOps (addr size : BitVec p) (ops : Option (IoaddrOps σ p)) (s : σ) :
    Int × IoaddrInfo σ p × σ :=
  match ops with
  | none => (0, .zero, s)
  | some ops =>
    let info : IoaddrInfo σ p := ⟨addr, size, ops⟩
    match ops.init with
    | none => (0, info, s)
    | some init =>
      let (ret, s) := init addr size s
      if ret ≠ 0 then (ret, .zero, s) else (0, info, s)

/-- `ga_ioaddr_to_phys`: the physical address when it is in the hooked range. -/
def gaIoaddrToPhys (bus : Bus σ p) (info : IoaddrInfo σ p) (ioaddr : Iomem) :
    Except Errno (Option (BitVec p)) :=
  match bus.vmallocToPage ioaddr with
  | none => .error .efault
  | some page =>
    let addr := page + BitVec.ofNat p (ioaddr % bus.pageSize)
    if addr ≥ info.addr ∧ addr < info.addr + info.size then .ok (some addr) else .ok none

/-- `ga_raw_readb` -/
def gaRawReadb (bus : Bus σ p) (info : IoaddrInfo σ p) (ioaddr : Iomem) (s : σ) :
    BitVec 8 × σ :=
  match info.ops.read8 with
  | none => bus.rawRead .w8 ioaddr s
  | some read8 =>
    match gaIoaddrToPhys bus info ioaddr with
    | .error _ => (0, s)
    | .ok (some addr) => read8 addr s
    | .ok none => bus.rawRead .w8 ioaddr s

/-- `ga_raw_writeb` -/
def gaRawWriteb (bus : Bus σ p) (info : IoaddrInfo σ p) (val : BitVec 8) (ioaddr : Iomem)
    (s : σ) : σ :=
  match info.ops.write8 with
  | none => bus.rawWrite .w8 val ioaddr s
  | some write8 =>
    match gaIoaddrToPhys bus info ioaddr with
    | .error _ => s
    | .ok (some addr) => write8 val addr s
    | .ok none => bus.rawWrite .w8 val ioaddr s

/-- What an access does: the hooks see the 8-bit ones. -/
def execReg (bus : Bus σ p) (info : IoaddrInfo σ p) : (c : RegCmd) → σ → c.Answer × σ
  | .read .w8 addr, s => gaRawReadb bus info addr s
  | .read .w16 addr, s => bus.rawRead .w16 addr s
  | .read .w32 addr, s => bus.rawRead .w32 addr s
  | .read .w64 addr, s => bus.rawRead .w64 addr s
  | .write .w8 val addr, s => ((), gaRawWriteb bus info val addr s)
  | .write .w16 val addr, s => ((), bus.rawWrite .w16 val addr s)
  | .write .w32 val addr, s => ((), bus.rawWrite .w32 val addr s)
  | .write .w64 val addr, s => ((), bus.rawWrite .w64 val addr s)

end Hooks

/-! ## Writing -/

/-- `GA_WRITE` -/
def gaWrite : BitVec 32 := 0x01

/-- `GA_READ_WRITE_CONDITIONAL` -/
def gaReadWriteConditional : BitVec 32 := 0x02

/-- `GA_READ_WRITE_ALWAYS` -/
def gaReadWriteAlways : BitVec 32 := 0x04

/-- The return codes `GA_MODIFIED_NONE`, `GA_MODIFIED_SURE`, `GA_MODIFIED_MAYBE`. -/
inductive Modified
  | none
  | sure
  | maybe
deriving DecidableEq, Repr

/-- `GA_DEFINE_REG_WRITE`; `all` is the mask of all bits. -/
def gaDefineRegWrite (w : Width) (all : BitVec w.bits) (addr : Iomem)
    (mask value : BitVec w.bits) (options : BitVec 32) : RegProg Modified := do
  if options &&& gaWrite ≠ 0 ∨ mask = all then
    -- all bits are updated, so there is no need to read first
    writeReg w (value &&& mask) addr
    return .maybe
  else if options &&& (gaReadWriteConditional ||| gaReadWriteAlways) ≠ 0 then
    let oldReg ← readReg w addr
    let newReg := (oldReg &&& ~~~mask) ||| (value &&& mask)
    let modified := if oldReg ≠ newReg then Modified.sure else Modified.none
    if options &&& gaReadWriteAlways ≠ 0 ∨ oldReg ≠ newReg then
      writeReg w newReg addr
    return modified
  else
    return .none

def gaRegWrite8 := gaDefineRegWrite .w8 0xff
def gaRegWrite16 := gaDefineRegWrite .w16 0xffff
def gaRegWrite32 := gaDefineRegWrite .w32 0xffffffff

/-- `__LITTLE_ENDIAN`, or not. -/
inductive ByteOrder
  | little
  | big
deriving DecidableEq, Repr

/-- `CONFIG_64BIT`, or not. -/
inductive Config
  | native
  | split (order : ByteOrder)
deriving DecidableEq, Repr

/-- `(u32)(x & 0x00000000ffffffffULL)` -/
def lowHalf (x : BitVec 64) : BitVec 32 := (x &&& 0x00000000ffffffff).setWidth 32

/-- `(u32)(x >> 32)` -/
def highHalf (x : BitVec 64) : BitVec 32 := (x >>> 32).setWidth 32

/-- The return code of two halves. -/
def Modified.both (rc1 rc2 : Modified) : Modified :=
  if rc1 = .sure ∨ rc2 = .sure then .sure
  else if rc1 = .maybe ∨ rc2 = .maybe then .maybe
  else .none

/-- `ga_reg_write64`: one access, or two with the first half at `addr`. -/
def gaRegWrite64 (config : Config) (addr : Iomem) (mask value : BitVec 64)
    (options : BitVec 32) : RegProg Modified :=
  match config with
  | .native => gaDefineRegWrite .w64 0xffffffffffffffff addr mask value options
  | .split .little => do
    let rc1 ← gaRegWrite32 addr (lowHalf mask) (lowHalf value) options
    let rc2 ← gaRegWrite32 (addr + 4) (highHalf mask) (highHalf value) options
    return rc1.both rc2
  | .split .big => do
    let rc1 ← gaRegWrite32 addr (highHalf mask) (highHalf value) options
    let rc2 ← gaRegWrite32 (addr + 4) (lowHalf mask) (lowHalf value) options
    return rc1.both rc2

/-- `ga_reg_write8` to `ga_reg_write64`. -/
def gaRegWriteN (config : Config) : (w : Width) → Iomem → BitVec w.bits → BitVec w.bits →
    BitVec 32 → RegProg Modified
  | .w8 => gaRegWrite8
  | .w16 => gaRegWrite16
  | .w32 => gaRegWrite32
  | .w64 => gaRegWrite64 config

/-- The width of an `access_size`. -/
def widthOf (accessSize : Int) : Option Width :=
  if accessSize = 8 then some .w8
  else if accessSize = 16 then some .w16
  else if accessSize = 32 then some .w32
  else if accessSize = 64 then some .w64
  else none

/-- `ga_reg_write`: the code of the access itself is dropped. -/
def gaRegWrite (config : Config) (addr : Iomem) (accessSize : Int) (mask value : BitVec 64)
    (options : BitVec 32) : RegProg (Except Errno Unit) :=
  match widthOf accessSize with
  | some w => do
    let _ ← gaRegWriteN config w addr (mask.setWidth w.bits) (value.setWidth w.bits) options
    return .ok ()
  | none => return .error .einval

/-! ## Reading -/

/-- `GA_DEFINE_REG_READ` -/
def gaDefineRegRead (w : Width) (addr : Iomem) (mask : BitVec w.bits) :
    RegProg (BitVec w.bits) := do
  let reg ← readReg w addr
  return reg &&& mask

def gaRegRead8 := gaDefineRegRead .w8
def gaRegRead16 := gaDefineRegRead .w16
def gaRegRead32 := gaDefineRegRead .w32

/-- `ga_reg_read64`: one access, or two with the first half at `addr`. -/
def gaRegRead64 (config : Config) (addr : Iomem) (mask : BitVec 64) : RegProg (BitVec 64) :=
  match config with
  | .native => gaDefineRegRead .w64 addr mask
  | .split .little => do
    let lsv ← gaRegRead32 addr (lowHalf mask)
    let msv ← gaRegRead32 (addr + 4) (highHalf mask)
    return (msv.setWidth 64 <<< 32) &&& lsv.setWidth 64
  | .split .big => do
    let msv ← gaRegRead32 addr (highHalf mask)
    let lsv ← gaRegRead32 (addr + 4) (lowHalf mask)
    return (msv.setWidth 64 <<< 32) &&& lsv.setWidth 64

/-- `ga_reg_read8` to `ga_reg_read64`. -/
def gaRegReadN (config : Config) : (w : Width) → Iomem → BitVec w.bits → RegProg (BitVec w.bits)
  | .w8 => gaRegRead8
  | .w16 => gaRegRead16
  | .w32 => gaRegRead32
  | .w64 => gaRegRead64 config

/-- `ga_reg_read`: what it stores to `*value`. -/
def gaRegRead (config : Config) (addr : Iomem) (accessSize : Int) (mask : BitVec 64) :
    RegProg (Except Errno (BitVec 64)) :=
  match widthOf accessSize with
  | some w => do
    let reg ← gaRegReadN config w addr (mask.setWidth w.bits)
    return .ok (reg.setWidth 64)
  | none => return .error .einval

end LinuxDeviceDriver.Generic
