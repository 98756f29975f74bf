import LinuxDeviceDriver.Generic.Access

/-!
# The watchdog driver: `watchdog.c`

The driver keeps a hardware watchdog quiet: a timer kicks it once per interval, in
the timer handler or from a workqueue. Commands written to `/dev/watchdog` start
and stop the timer, kick once, and enable or disable the watchdog. All data is in
one static struct (`Priv`), which survives from one probe to the next.

This module has the functions as sequential code, on a `World` that holds the
struct, the timer, the registers and the resources the driver has acquired. What
must never happen is recorded as a `Fault`: a resource released that is not held, a
register touched that is not mapped, work queued on a workqueue that is not there.
`Watchdog.System` runs the same pieces of code concurrently.
-/

namespace LinuxDeviceDriver.Watchdog

open Lib Generic

/-! ## Data -/

/-- `WD_PROP_KICK_OFFSET` to `WD_PROP_ENABLE_VALUE`. -/
inductive WdProp
  | kickOffset
  | kickValue
  | enableOffset
  | enableValue
deriving DecidableEq, Repr

/-- `WD_PROP_NONE` -/
def wdPropNone : Int := -1

/-- The properties in the order of `watchdog_props`. -/
def watchdogProps : List WdProp := [.kickOffset, .kickValue, .enableOffset, .enableValue]

def WdProp.mandatory : WdProp → Bool
  | kickOffset => true
  | kickValue => true
  | enableOffset => false
  | enableValue => false

/-- The name in the device tree. -/
def WdProp.property : WdProp → String
  | kickOffset => "reg-kick-offset"
  | kickValue => "reg-kick-value"
  | enableOffset => "reg-enable-offset"
  | enableValue => "reg-enable-value"

/-- `WD_STATE_UNKNOWN`, `WD_STATE_DISABLED`, `WD_STATE_ENABLED`. -/
inductive WdState
  | unknown
  | disabled
  | enabled
deriving DecidableEq, Repr

/-- `wd_state_str` -/
def WdState.str : WdState → String
  | unknown => "unknown"
  | disabled => "disabled"
  | enabled => "enabled"

/-- The bit fields of `struct dev_watchdog`: 2, 2 and 4 bits, which share one byte. -/
structure Flags where
  miscRegistered : Bool
  timerRunning : Bool
  wdState : WdState
deriving DecidableEq, Repr

/-- `struct dev_watchdog`; a pointer is `none` when it is `NULL`. -/
structure Priv extends Flags where
  workqueue : Option Nat
  regBase : Option Iomem
  useWorkqueue : Bool
  props : WdProp → Int

/-- `priv` after the `memset` of `dev_watchdog_init`. -/
def Priv.zero : Priv where
  workqueue := none
  regBase := none
  useWorkqueue := false
  props := fun _ => 0
  miscRegistered := false
  timerRunning := false
  wdState := .unknown

/-- What a probe acquires. -/
inductive Resource
  | mapping (base : Iomem)
  | misc
  | workqueue (q : Nat)
deriving DecidableEq, Repr

inductive Fault
  /-- A resource is released that is not held. -/
  | released (r : Resource)
  /-- A register is accessed without a mapping. -/
  | access
  /-- Work is queued on a workqueue that is not there. -/
  | queue
deriving DecidableEq, Repr

/-- The driver and what it uses of the kernel: the timer, the registers, and (as ghosts)
the resources that are held and the faults so far. -/
structure World (σ : Type) where
  priv : Priv
  timerPending : Bool
  regs : σ
  held : List Resource
  faults : List Fault

/-- `dev_watchdog_init` -/
def World.init {σ : Type} (regs : σ) : World σ := ⟨.zero, false, regs, [], []⟩

section Functions

variable {σ : Type} (exec : (c : RegCmd) → σ → c.Answer × σ)

def World.acquire (r : Resource) (w : World σ) : World σ := { w with held := r :: w.held }

def World.release (r : Resource) (w : World σ) : World σ :=
  if r ∈ w.held then { w with held := w.held.erase r }
  else { w with faults := .released r :: w.faults }

/-! ## Registers -/

/-- The mapping `reg_base` points to is there. -/
def World.mapped (w : World σ) : Bool :=
  match w.priv.regBase with
  | some base => .mapping base ∈ w.held
  | none => false

/-- An access to the registers of the device. -/
def World.touch {α : Type} (p : RegProg α) (w : World σ) : α × World σ :=
  let r := p.run exec w.regs
  (r.1, { w with
    regs := r.2
    faults := if w.mapped then w.faults else .access :: w.faults })

/-- `priv.reg_base + priv.props[…]` -/
def Priv.reg (priv : Priv) (p : WdProp) : Iomem :=
  ((((priv.regBase.getD 0 : Nat) : Int) + priv.props p) % 2 ^ 64).toNat

/-- `dev_write` of `dev_watchdog_kick`. -/
def writeKick (priv : Priv) : RegProg Unit := do
  let _ ← gaRegWrite8 (priv.reg .kickOffset) 0xff (BitVec.ofInt 8 (priv.props .kickValue)) gaWrite
  return ()

/-- `dev_read_modify_write` of `dev_watchdog_enable`. -/
def writeEnable (priv : Priv) (enable : Bool) : RegProg Unit := do
  let value := BitVec.ofInt 8 (priv.props .enableValue)
  let _ ← gaRegWrite8 (priv.reg .enableOffset) value (if enable then value else 0x00)
    gaReadWriteAlways
  return ()

/-- `dev_read`, and the state it stands for. -/
def readEnable (priv : Priv) : RegProg WdState := do
  let reg ← gaRegRead8 (priv.reg .enableOffset) 0xff
  return if reg.setWidth 32 &&& BitVec.ofInt 32 (priv.props .enableValue) ≠ 0 then .enabled
    else .disabled

/-- Both properties of the enable register are there. -/
def Priv.hasEnable (priv : Priv) : Bool :=
  priv.props .enableOffset ≠ wdPropNone ∧ priv.props .enableValue ≠ wdPropNone

/-- `dev_watchdog_kick` -/
def devWatchdogKick (w : World σ) : World σ := (w.touch exec (writeKick w.priv)).2

/-- The first access of `dev_watchdog_enable`. -/
def setEnable (enable : Bool) (w : World σ) : World σ :=
  (w.touch exec (writeEnable w.priv enable)).2

/-- The read of the actual state. -/
def fetchState (w : World σ) : WdState × World σ := w.touch exec (readEnable w.priv)

/-- `priv.wd_state = …` -/
def setState (st : WdState) (w : World σ) : World σ := { w with priv.wdState := st }

/-- The second access: read back the actual state. -/
def readBack (w : World σ) : World σ :=
  let r := fetchState exec w
  setState r.1 r.2

/-- `dev_watchdog_enable` -/
def devWatchdogEnable (enable : Bool) (w : World σ) : World σ :=
  if w.priv.hasEnable then readBack exec (setEnable exec enable w) else w

/-- `dev_watchdog_read_enable` -/
def devWatchdogReadEnable (w : World σ) : World σ :=
  let w := setState .unknown w
  if w.priv.hasEnable then readBack exec w else w

/-! ## The timer -/

/-- `dev_watchdog_start` -/
def devWatchdogStart (w : World σ) : World σ :=
  { w with priv.timerRunning := true, timerPending := true }

/-- The first statement of `dev_watchdog_stop`. -/
def clearRunning (w : World σ) : World σ := { w with priv.timerRunning := false }

/-- `del_timer_sync`, when no handler is executing. -/
def delTimerSync (w : World σ) : World σ := { w with timerPending := false }

/-- `dev_watchdog_stop` -/
def devWatchdogStop (w : World σ) : World σ := delTimerSync (clearRunning w)

/-! ## Commands -/

inductive Command
  | stop
  | kick
  | start
  | enable (on : Bool)
deriving DecidableEq, Repr

/-- The `switch` of `dev_watchdog_write`. -/
def Command.ofChar (c : Byte) : Option Command :=
  if c = 0 ∨ c = '0'.toUInt8 ∨ c = 'q'.toUInt8 ∨ c = 'Q'.toUInt8 then some .stop
  else if c = 1 ∨ c = '1'.toUInt8 ∨ c = 'k'.toUInt8 ∨ c = 'K'.toUInt8 then some .kick
  else if c = 2 ∨ c = '2'.toUInt8 ∨ c = 's'.toUInt8 ∨ c = 'S'.toUInt8 then some .start
  else if c = 3 ∨ c = '3'.toUInt8 ∨ c = 'e'.toUInt8 ∨ c = 'E'.toUInt8 then some (.enable true)
  else if c = 4 ∨ c = '4'.toUInt8 ∨ c = 'd'.toUInt8 ∨ c = 'D'.toUInt8 then some (.enable false)
  else none

def Command.execute : Command → World σ → World σ
  | stop => devWatchdogStop
  | kick => devWatchdogKick exec
  | start => devWatchdogStart
  | enable on => devWatchdogEnable exec on

/-- `dev_watchdog_write`; `c` is what `get_user` fetches. -/
def devWatchdogWrite (c : Option Byte) (len : Nat) (w : World σ) : Except Errno Nat × World σ :=
  match c with
  | none => (.error .efault, w)
  | some c =>
    match Command.ofChar c with
    | none => (.error .einval, w)
    | some command => (.ok len, command.execute exec w)

/-- The value the entry point returns to the kernel. -/
def returnValue : Except Errno Nat → Int
  | .ok len => len
  | .error e => e.neg

/-- `dev_watchdog_read`: the text, once for every open; `privateData` says that it has not
been read yet, `userOk` that the user buffer takes it. -/
def devWatchdogRead (privateData userOk : Bool) (w : World σ) : Except Errno String × Bool :=
  if privateData then
    let str := "t=" ++ toString w.priv.timerRunning.toNat ++ " s=" ++
      toString w.priv.wdState.str.front ++ "\n"
    (if userOk then .ok str else .error .efault, false)
  else (.ok "", false)

/-! ## Remove -/

def destroyWorkqueue (w : World σ) : World σ :=
  match w.priv.workqueue with
  | some q => w.release (.workqueue q)
  | none => w

/-- `priv.misc_registered = 0` -/
def clearRegistered (w : World σ) : World σ := { w with priv.miscRegistered := false }

def miscDeregister (w : World σ) : World σ :=
  if w.priv.miscRegistered then clearRegistered (w.release .misc) else w

def unmapMemory (w : World σ) : World σ :=
  match w.priv.regBase with
  | some base => { w.release (.mapping base) with priv.regBase := none }
  | none => w

/-- `dev_watchdog_remove` behind its `dev_watchdog_stop`. -/
def tearDown (w : World σ) : World σ := unmapMemory (miscDeregister (destroyWorkqueue w))

/-- `dev_watchdog_remove`; it returns 0. -/
def devWatchdogRemove (w : World σ) : World σ := tearDown (devWatchdogStop w)

/-! ## Probe -/

/-- What a probe finds: the device tree (length and first cell of a property) and the
answers of the kernel. -/
structure ProbeEnv where
  ofIomap : Option Iomem
  ofGetProperty : String → Option (Nat × BitVec 32)
  miscRegister : Int
  createWorkqueue : Option Nat

/-- `of_iomap` -/
def mapMemory (env : ProbeEnv) (w : World σ) : World σ :=
  match env.ofIomap with
  | some base => { w.acquire (.mapping base) with priv.regBase := some base }
  | none => { w with priv.regBase := none }

/-- The loop over the properties, which ends at the first that is not as it should be. -/
def getProps (env : ProbeEnv) : List WdProp → (WdProp → Int) → Option Errno × (WdProp → Int)
  | [], props => (none, props)
  | p :: ps, props =>
    match env.ofGetProperty p.property with
    | some (len, value) =>
      if len ≠ 4 then (some .einval, props)
      else getProps env ps (Function.update props p value.toInt)
    | none =>
      if p.mandatory then (some .einval, props)
      else getProps env ps (Function.update props p wdPropNone)

def setProps (env : ProbeEnv) (w : World σ) : World σ :=
  { w with priv.props := (getProps env watchdogProps w.priv.props).2 }

/-- `priv.misc_registered = 1`, and the look at `use-workqueue` behind it. -/
def setRegistered (env : ProbeEnv) (w : World σ) : World σ :=
  { w with
    priv.miscRegistered := true
    priv.useWorkqueue := w.priv.useWorkqueue || (env.ofGetProperty "use-workqueue").isSome }

/-- `misc_register` has succeeded. -/
def setMisc (env : ProbeEnv) (w : World σ) : World σ := setRegistered env (w.acquire .misc)

/-- `create_singlethread_workqueue` -/
def setWorkqueue (env : ProbeEnv) (w : World σ) : World σ :=
  match env.createWorkqueue with
  | some q => { w.acquire (.workqueue q) with priv.workqueue := some q }
  | none => { w with priv.workqueue := none }

/-- `dev_watchdog_probe` -/
def devWatchdogProbe (env : ProbeEnv) (w : World σ) : Int × World σ :=
  if w.priv.regBase ≠ none then (Errno.eio.neg, w)
  else
    let w := mapMemory env w
    if w.priv.regBase = none then (Errno.eio.neg, devWatchdogRemove w)
    else
      let error := (getProps env watchdogProps w.priv.props).1
      let w := setProps env w
      match error with
      | some e => (e.neg, devWatchdogRemove w)
      | none =>
        let ret := env.miscRegister
        if ret < 0 then (ret, devWatchdogRemove w)
        else
          let w := setWorkqueue env (setMisc env w)
          -- ret still has the value of misc_register
          if w.priv.workqueue = none then (ret, devWatchdogRemove w)
          else (0, devWatchdogReadEnable exec w)

end Functions

end LinuxDeviceDriver.Watchdog
