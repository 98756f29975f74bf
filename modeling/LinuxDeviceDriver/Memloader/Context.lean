import Mathlib.Data.List.DropRight
import LinuxDeviceDriver.Kernel

/-!
# `struct fw_context` and its initialisation

The data model of `memloader/firmware.c` and `firmware.h`: the five firmware
states, the image `request_firmware` returns, the context with its configurable
attributes, and `fw_initialize` with what it reads from the device tree.

A firmware image reaches the driver in one of two shapes: flat (`data` points to
all bytes) or, when the kernel could not map it, as a list of pages.
-/

namespace LinuxDeviceDriver.Memloader

/-- `FW_EMPTY`, `FW_LOADING`, `FW_LOADED`, `FW_FAILED`, `FW_DELETED`. -/
inductive FwState
  | empty
  | loading
  | loaded
  | failed
  | deleted
deriving DecidableEq, Repr

/-- `struct firmware`. `none` is `NULL`; a page is its bytes by in-page offset. -/
structure Firmware where
  size : Nat
  data : Option (Nat → Byte)
  pages : Option (List (Nat → Byte))

/-- What `request_firmware` returns: an image, or a negative error code. -/
inductive RequestResult
  | ok (fw : Firmware)
  | fail (err : Int) (neg : err < 0)

/-- `struct fw_context` without its callbacks. `filename` are the bytes copied in
front of the terminator; `dev` is the device the firmware belongs to. -/
structure FwContext where
  fw : Option Firmware
  data : Option (Nat → Byte)
  totalCount : Int
  currentCount : Int
  devicemask : Int
  blockread : Int
  blocksize : Int
  blockdelay : Int
  dev : Option Nat
  filename : List Byte
  state : FwState
  kobjInit : Bool
  kobjAdded : Bool

/-- The context inside a freshly `kzalloc`ed driver structure. -/
def FwContext.zero : FwContext where
  fw := none
  data := none
  totalCount := 0
  currentCount := 0
  devicemask := 0
  blockread := 0
  blocksize := 0
  blockdelay := 0
  dev := none
  filename := []
  state := .empty
  kobjInit := false
  kobjAdded := false

/-! ## Device tree parameters -/

/-- `DEF_FIRMWARE_NAME`, the bytes of "fpga.bit". -/
def defFirmwareName : List Byte := [102, 112, 103, 97, 46, 98, 105, 116]
def defBlockread : Int := 640
def defBlocksize : Int := 20
def defBlockdelay : Int := 10

/-- The trailing characters `fw_set_filename` strips: CR, LF, TAB, space. -/
def isTrailing (b : Byte) : Bool := b == 13 || b == 10 || b == 9 || b == 32

/-- `sizeof(ctx->filename)`. -/
def filenameSize : Nat := 32

/-- How many bytes the stripping loop looks at. Its `n` starts at `(int)count - 1`, which is
negative for some large counts (`scannedBytes_eq`). -/
def scannedBytes (count : Nat) : Nat :=
  if toUInt32 count ≤ 2 ^ 31 then toUInt32 count else 0

theorem scannedBytes_eq (count : Nat) :
    scannedBytes count = (toInt32 (toInt32 count - 1) + 1).toNat := by
  unfold scannedBytes toUInt32
  rw [toInt32_sub, toInt32, Int.bmod_def]
  split <;> split <;> omega

/-- Strip trailing spaces, … -/
def keptName (buf : List Byte) : List Byte :=
  (buf.take (scannedBytes buf.length)).rdropWhile isTrailing

def fwSetFilename (ctx : FwContext) (buf : List Byte) : Int × FwContext :=
  let kept := keptName buf
  if kept.length = 0 then (Errno.einval.neg, ctx)
  else if kept.length ≥ filenameSize then (Errno.einval.neg, ctx)
  else (0, { ctx with filename := kept })

/-- What the `firmware-target` phandle leads to. -/
inductive TargetRef
  | noNode
  | noDevice
  | device (dev : Nat)

/-- The device tree properties `fw_get_parameters` reads. -/
structure DtNode where
  firmwareLoad : Bool
  firmwareTarget : Option TargetRef
  firmwareBlockread : Option Nat
  firmwareBlocksize : Option Nat
  firmwareBlockdelay : Option Nat
  firmwareFilename : Option (List Byte)

/-- The integer properties override the defaults one by one. -/
def fwGetBlockParameters (node : DtNode) (ctx : FwContext) : FwContext :=
  { ctx with
    blockread := (node.firmwareBlockread.map fun v => toInt32 v).getD ctx.blockread
    blocksize := (node.firmwareBlocksize.map fun v => toInt32 v).getD ctx.blocksize
    blockdelay := (node.firmwareBlockdelay.map fun v => toInt32 v).getD ctx.blockdelay }

/-- `fw_get_parameters`: 0 when no firmware is to be loaded, 1 when it is. -/
def fwGetParameters (node : DtNode) (ctx : FwContext) : Int × FwContext :=
  if !node.firmwareLoad then (0, ctx)
  else
    match node.firmwareTarget with
    | some .noNode => (Errno.enodev.neg, ctx)
    | some .noDevice => (Errno.enodev.neg, ctx)
    | target =>
      let ctx := match target with
        | some (.device d) => { ctx with dev := some d }
        | _ => ctx
      let ctx := fwGetBlockParameters node ctx
      match node.firmwareFilename with
      | none => (1, ctx)
      | some name =>
        let (ret, ctx) := fwSetFilename ctx name
        if ret < 0 then (ret, ctx) else (1, ctx)

/-- `fw_initialize` up to the kobject: defaults, device tree, device check. It
goes on (to `mutex_init` and `kobject_add`) when the result is positive. -/
def fwInitializeContext (node : DtNode) (devTarget : Option Nat) (ctx : FwContext) :
    Int × FwContext :=
  let ctx := { ctx with
    filename := defFirmwareName
    blockread := defBlockread
    blocksize := defBlocksize
    blockdelay := defBlockdelay
    devicemask := 0xff
    dev := devTarget
    state := .empty }
  let (ret, ctx) := fwGetParameters node ctx
  if ret ≤ 0 then (ret, ctx)
  else match ctx.dev with
    | none => (Errno.enodev.neg, ctx)
    | some _ => (ret, ctx)

/-- The name is refused, or it replaces the old one. -/
theorem fwSetFilename_cases (ctx : FwContext) (buf : List Byte) :
    fwSetFilename ctx buf = (Errno.einval.neg, ctx) ∨
    (0 < (keptName buf).length ∧ (keptName buf).length < filenameSize ∧
      fwSetFilename ctx buf = (0, { ctx with filename := keptName buf })) := by
  unfold fwSetFilename
  generalize keptName buf = kept
  dsimp only
  split
  · exact Or.inl rfl
  split
  · exact Or.inl rfl
  · exact Or.inr ⟨by omega, by omega, rfl⟩

theorem fwSetFilename_state (ctx : FwContext) (buf : List Byte) :
    (fwSetFilename ctx buf).2.state = ctx.state := by
  rcases fwSetFilename_cases ctx buf with h | ⟨-, -, h⟩ <;> rw [h]

theorem fwGetParameters_state (node : DtNode) (ctx : FwContext) :
    (fwGetParameters node ctx).2.state = ctx.state := by
  have hname : ∀ ctx' : FwContext, ctx'.state = ctx.state →
      (match node.firmwareFilename with
        | none => ((1 : Int), ctx')
        | some name =>
          if (fwSetFilename ctx' name).1 < 0 then
            ((fwSetFilename ctx' name).1, (fwSetFilename ctx' name).2)
          else (1, (fwSetFilename ctx' name).2)).2.state = ctx.state := by
    intro ctx' hstate
    split
    · exact hstate
    · split <;> exact (fwSetFilename_state _ _).trans hstate
  simp only [fwGetParameters]
  split
  · rfl
  · split
    · rfl
    · rfl
    · refine hname _ ?_
      simp only [fwGetBlockParameters]
      split <;> rfl

/-- Whatever the device tree says, a context starts out `FW_EMPTY`. -/
theorem fwInitializeContext_state (node : DtNode) (devTarget : Option Nat) (ctx : FwContext) :
    (fwInitializeContext node devTarget ctx).2.state = .empty := by
  simp only [fwInitializeContext]
  split
  · exact fwGetParameters_state _ _
  · split <;> exact fwGetParameters_state _ _

/-- `fw_cleanup` on a context whose kobject was added; otherwise it does nothing. -/
def fwCleanup (ctx : FwContext) : FwContext :=
  if ctx.kobjAdded then { ctx with state := .deleted, kobjAdded := false } else ctx

end LinuxDeviceDriver.Memloader
