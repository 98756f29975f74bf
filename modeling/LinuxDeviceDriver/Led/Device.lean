import Mathlib.Data.List.TakeWhile
import LinuxDeviceDriver.Kernel
import LinuxDeviceDriver.Led.Support

/-!
# The LED device: `led_dev.c`

Activating a device allocates its private data, parses a LED from each child of the device
node, creates a workqueue, and registers the LEDs with the LED core (`dev_leds_init`).
Deactivating it goes the other way.

The state of a device (`Dev`) has all private data ever allocated and says which one the
platform data points to, if any. It keeps three records: what the LED core was asked to do
(`core`), what each execution of `dev_leds_brightness_set` found (`calls`), and the messages.
As the LED core does, `led_classdev_unregister` calls the `brightness_set` of the LED with
`LED_OFF`.

`dev_leds_brightness_set` does not test what `platform_get_drvdata` returns. Where that is NULL the
thread dies there, in the middle of whatever it was doing: `oops` is set, and nothing of what was to
follow is done (`Dev.next`).

`Calm cs` is what brightness sets leave alone while the LED core is asked for `cs`. It holds of
`unregister` and, by induction, of the two loops that unregister LEDs, as long as no LED of theirs
is set without private data (`Dev.Survives`).
-/

namespace LinuxDeviceDriver.Led

open Lib Generic

/-! ## Data -/

/-- The functions of this driver that a LED can have as its `brightness_set`. -/
inductive SetFn
  | devLedsBrightnessSet
  | _devLedsBrightnessSet
deriving DecidableEq

/-- `struct dev_led`; `brightness` and `brightnessSet` are those of its `cdev`. -/
structure LedDat extends DevLed where
  name : List Byte
  brightness : Brightness
  ledBrightnessSet : Option SetFn
  brightnessSet : Option SetFn

/-- A LED: the private data it is in, and its index there. -/
abbrev Cdev := Nat × Nat

/-- `priv->workqueue`, with the work items that wait. -/
inductive Workqueue
  | null
  | running (pending : List (Cdev × Brightness))
  | destroyed

def Workqueue.isRunning : Workqueue → Bool
  | running _ => true
  | _ => false

/-- `queue_work` -/
def Workqueue.queueWork (item : Cdev × Brightness) : Workqueue → Workqueue
  | running pending => running (pending ++ [item])
  | queue => queue

/-- `struct led_dev_priv` -/
structure Priv where
  workqueue : Workqueue
  useWorkqueue : Bool
  regBase : Option Iomem
  numLeds : Nat
  leds : Nat → LedDat

/-- What the LED core was asked to do. -/
inductive CoreCall
  | register (cdev : Cdev)
  | unregister (cdev : Cdev)
deriving DecidableEq

/-- What an execution of `dev_leds_brightness_set` found. -/
inductive SetCall
  | nullDrvdata
  | noMemory
  | queued (running : Bool)
  | direct
deriving DecidableEq

/-- There was private data, and a workqueue if one was used. -/
def SetCall.Live : SetCall → Prop
  | nullDrvdata => False
  | queued running => running = true
  | _ => True

instance (c : SetCall) : Decidable c.Live := by
  cases c <;> unfold SetCall.Live <;> infer_instance

/-- A platform device of this driver. `privs p` for `p < allocated` is what the calls of
`devm_kzalloc` returned; `oops` is about the thread that executes the driver. -/
structure Dev (σ : Type) where
  privs : Nat → Priv
  allocated : Nat
  drvdata : Option Nat
  regs : σ
  core : List CoreCall
  calls : List SetCall
  msgs : List String
  oops : Bool

/-- The registers, and whether the allocation of a work item succeeds (after so many
executions of `dev_leds_brightness_set`). -/
structure Host (σ : Type) where
  exec : (c : RegCmd) → σ → c.Answer × σ
  kzalloc : Nat → Bool

def LedDat.zero : LedDat where
  regBase := 0
  regOffset := 0
  regMask := 0
  enbRegOffset := 0
  enbRegMask := 0
  enbRegValue := 0
  enbCtrl := 0
  activeLow := false
  disabled := false
  name := []
  brightness := 0
  ledBrightnessSet := none
  brightnessSet := none

/-- Private data as `devm_kzalloc` returns it. -/
def Priv.zero : Priv := ⟨.null, false, none, 0, fun _ => .zero⟩

/-- Private data before the children are parsed. -/
def Priv.mapped (base : Iomem) (useWorkqueue : Bool) : Priv :=
  { Priv.zero with regBase := some base, useWorkqueue := useWorkqueue }

/-- A device that was never activated. -/
def Dev.fresh {σ : Type} (regs : σ) : Dev σ := ⟨fun _ => .zero, 0, none, regs, [], [], [], false⟩

section Functions

variable {σ : Type}

def Dev.led (d : Dev σ) (cdev : Cdev) : LedDat := (d.privs cdev.1).leds cdev.2

def Dev.modifyPriv (d : Dev σ) (p : Nat) (f : Priv → Priv) : Dev σ :=
  { d with privs := Function.update d.privs p (f (d.privs p)) }

def Dev.devErr (d : Dev σ) (msg : String) : Dev σ := { d with msgs := d.msgs ++ [msg] }

/-- A thread comes in. -/
def Dev.entered (d : Dev σ) : Dev σ := { d with oops := false }

/-- What the thread does next, if it is still there. -/
def Dev.next (d : Dev σ) (f : Dev σ → Dev σ) : Dev σ := if d.oops then d else f d

/-! ## Setting a LED -/

variable (host : Host σ)

/-- `_dev_leds_brightness_set` -/
def Dev.setNow (d : Dev σ) (cdev : Cdev) (ledValue : Brightness) : Dev σ :=
  { d with regs := ((_devLedsBrightnessSet (d.led cdev).toDevLed ledValue).run host.exec d.regs).2 }

/-- `dev_leds_enb_reg_set` -/
def Dev.enbRegSet (d : Dev σ) (cdev : Cdev) : Dev σ :=
  { d with regs := ((devLedsEnbRegSet (d.led cdev).toDevLed).run host.exec d.regs).2 }

/-- `dev_leds_brightness_set`; without private data there is nothing to read `use_workqueue`
from. -/
def devLedsBrightnessSet (d : Dev σ) (cdev : Cdev) (ledValue : Brightness) : Dev σ :=
  match d.drvdata with
  | none => { d with calls := d.calls ++ [.nullDrvdata], oops := true }
  | some q =>
    let priv := d.privs q
    if priv.useWorkqueue then
      if host.kzalloc d.calls.length then
        { d.modifyPriv q fun priv =>
            { priv with workqueue := priv.workqueue.queueWork (cdev, ledValue) } with
          calls := d.calls ++ [.queued priv.workqueue.isRunning] }
      else
        { d.devErr "ERROR: fail to alloc led_queued_work resource!" with
          calls := d.calls ++ [.noMemory] }
    else { d.setNow host cdev ledValue with calls := d.calls ++ [.direct] }

/-- `cdev->brightness_set(cdev, led_value)`, where there is one. -/
def Dev.set (d : Dev σ) (cdev : Cdev) (ledValue : Brightness) : Dev σ :=
  match (d.led cdev).brightnessSet with
  | none => d
  | some .devLedsBrightnessSet => devLedsBrightnessSet host d cdev ledValue
  | some ._devLedsBrightnessSet => d.setNow host cdev ledValue

/-- Work items one after the other: `dev_led_set_work`. -/
def Dev.setAll (d : Dev σ) (items : List (Cdev × Brightness)) : Dev σ :=
  items.foldl (fun d item => d.setNow host item.1 item.2) d

/-! ## Registering LEDs -/

/-- A successful `led_classdev_register`. -/
def Dev.register (d : Dev σ) (cdev : Cdev) : Dev σ := { d with core := d.core ++ [.register cdev] }

/-- `led_classdev_unregister`; the LED is switched off before it goes. -/
def Dev.unregister (d : Dev σ) (cdev : Cdev) : Dev σ :=
  let asked : Dev σ := { d with core := d.core ++ [.unregister cdev] }
  asked.set host cdev ledOff

/-- The LED descriptor completed: its callback and its registers. -/
def LedDat.complete (devBase : Iomem) (led : LedDat) : LedDat :=
  { led with
    brightnessSet := some (led.ledBrightnessSet.getD ._devLedsBrightnessSet)
    regBase := devBase }

def Dev.complete (d : Dev σ) (p i : Nat) (devBase : Iomem) : Dev σ :=
  d.modifyPriv p fun priv =>
    { priv with leds := Function.update priv.leds i ((priv.leds i).complete devBase) }

/-- `while (--i >= 0) led_classdev_unregister(...)` -/
def Dev.unwind (p : Nat) : Nat → Dev σ → Dev σ
  | 0, d => d
  | i + 1, d => (d.unregister host (p, i)).next fun d => unwind p i d

/-- The loop of `dev_leds_init` from index `i` on, with `todo` LEDs to go. `register i` is what
`led_classdev_register` returns. -/
def devLedsInit (register : Nat → Int) (p : Nat) (devBase : Iomem) :
    (todo i : Nat) → Int → Dev σ → Int × Dev σ
  | 0, _, ret, d => (ret, d)
  | todo + 1, i, _, d =>
    let d := d.complete p i devBase
    let initialBrightness := (d.led (p, i)).brightness
    if register i < 0 then (register i, d.unwind host p i)
    else
      let d := (d.register (p, i)).set host (p, i) initialBrightness
      if d.oops then (register i, d)
      else devLedsInit register p devBase todo (i + 1) (register i) (d.enbRegSet host (p, i))

/-- `dev_leds_cleanup` -/
def devLedsCleanup (p : Nat) : Nat → Dev σ → Dev σ
  | 0, d => d
  | num + 1, d => (devLedsCleanup p num d).next fun d => d.unregister host (p, num)

/-! ## Deactivating -/

/-- `destroy_workqueue(priv->workqueue)`, if there is one; it finishes what waits. -/
def Dev.destroyWorkqueue (d : Dev σ) (p : Nat) : Dev σ :=
  match (d.privs p).workqueue with
  | .running pending =>
    (d.setAll host pending).modifyPriv p fun priv => { priv with workqueue := .destroyed }
  | _ => d

/-- `led_dev_deactivate` -/
def ledDevDeactivate (d : Dev σ) : Int × Dev σ :=
  match d.drvdata with
  | none => (Errno.enodev.neg, d)
  | some p =>
    let d := { d.destroyWorkqueue host p with drvdata := none }
    let d := devLedsCleanup host p (d.privs p).numLeds d
    (0, d.next fun d => d.modifyPriv p fun priv => { priv with regBase := none })

/-! ## Parsing -/

/-- The properties of a child node. -/
structure Child where
  ledName : Option (List Byte)
  regOffset : Option (List Byte)
  bitIndex : Option (List Byte)
  regIndex : Option (List Byte)
  enableCtrl : Option (List Byte)
  enableRegOffset : Option (List Byte)
  enableBitIndex : Option (List Byte)
  enableBitValue : Option (List Byte)
  initialBrightness : Option (List Byte)
  activeLow : Option (List Byte)

/-- `be32_to_cpup` of a property that has the size of a cell. -/
def cell : Option (List Byte) → Option (BitVec 32)
  | some [a, b, c, d] => some (a.toBitVec ++ b.toBitVec ++ c.toBitVec ++ d.toBitVec)
  | _ => none

/-- `1 << index` as a `u8`; an index of 32 or more is not defined in C. -/
def bitMask (index : BitVec 32) : BitVec 8 := ((1 : BitVec 32) <<< index.toNat).setWidth 8

/-- A cell as a `u8`, 0 without one. -/
def cellByte (property : Option (List Byte)) : BitVec 8 :=
  (cell property).elim 0 fun value => value.setWidth 8

/-- A property that is missing or invalid is an error. -/
def mandatory {α : Type} (property : String) : Option α → Except String α
  | none => .error property
  | some value => .ok value

/-- A cell that need not be there, 0 without it. -/
def optionalCell (property : String) (value : Option (List Byte)) : Except String (BitVec 32) :=
  if value.isSome then mandatory property (cell value) else .ok 0

/-- The body of the loop over the children; the error is the property at fault. -/
def parseChild (useWorkqueue : Bool) (child : Child) : Except String LedDat := do
  let name ← mandatory "led-name" child.ledName
  let regOffset ← mandatory "reg-offset" (cell child.regOffset)
  let index ← mandatory "bit-index/reg-index" (cell (child.bitIndex.or child.regIndex))
  let enbCtrl := cellByte child.enableCtrl
  -- `enb_ctrl` stays 1 only when the three other properties are valid
  let complete := (cell child.enableRegOffset).isSome ∧ (cell child.enableBitIndex).isSome ∧
    (cell child.enableBitValue).isSome
  let brightness ← optionalCell "initial-brightness" child.initialBrightness
  let activeLow ← optionalCell "active_low" child.activeLow
  return {
    regBase := 0
    regOffset := regOffset.setWidth 8
    regMask := bitMask index
    enbRegOffset := if enbCtrl = 1 then cellByte child.enableRegOffset else 0
    enbRegMask := if enbCtrl = 1 then (cell child.enableBitIndex).elim 0 bitMask else 0
    enbRegValue := if enbCtrl = 1 then cellByte child.enableBitValue else 0
    enbCtrl := if enbCtrl = 1 ∧ ¬ complete then 0 else enbCtrl
    -- a bit field of one bit
    activeLow := activeLow.getLsbD 0
    disabled := false
    -- `LED_NAME_SIZE - 1`
    name := name.take 31
    brightness := brightness
    ledBrightnessSet := if useWorkqueue then some .devLedsBrightnessSet else none
    brightnessSet := none }

/-- The loop over the children, up to the first that is not valid; its LED is not counted. -/
def parseChildren : List Child → Priv → Priv × Option String
  | [], priv => (priv, none)
  | child :: children, priv =>
    match parseChild priv.useWorkqueue child with
    | .error property => (priv, some property)
    | .ok led =>
      parseChildren children
        { priv with
          leds := Function.update priv.leds priv.numLeds led
          numLeds := priv.numLeds + 1 }

/-! ## Activating -/

/-- The device tree and the kernel as an activation finds them. -/
structure Env where
  children : List Child
  compatible : Bool
  devmKzalloc : Bool
  ofIomap : Option Iomem
  useWorkqueue : Bool
  createWorkqueue : Bool
  register : Nat → Int

/-- `devm_kzalloc` and `platform_set_drvdata`. -/
def Dev.allocate (d : Dev σ) : Dev σ :=
  { d.modifyPriv d.allocated fun _ => .zero with
    allocated := d.allocated + 1
    drvdata := some d.allocated }

/-- The label `err`. -/
def activateErr (ret : Int) (d : Dev σ) : Int × Dev σ := (ret, (ledDevDeactivate host d).2)

/-- `led_dev_activate` -/
def ledDevActivate (env : Env) (d : Dev σ) : Int × Dev σ :=
  let d := d.entered
  if env.children = [] then (0, d)
  else if !env.compatible then
    activateErr host Errno.enodev.neg
      (d.devErr "leds node does not have a parent 'alu,dev' node in device tree\n")
  else if !env.devmKzalloc then
    activateErr host Errno.enomem.neg (d.devErr "cannot allocate led nodes\n")
  else
    let p := d.allocated
    let d := d.allocate
    match env.ofIomap with
    | none => activateErr host Errno.eio.neg (d.devErr "cannot iomap leds nodes\n")
    | some base =>
      let parsed := parseChildren env.children (.mapped base env.useWorkqueue)
      let d := d.modifyPriv p fun _ => parsed.1
      match parsed.2 with
      | some property =>
        activateErr host Errno.efault.neg (d.devErr ("no or invalid " ++ property ++ " property\n"))
      | none =>
        if !env.createWorkqueue then
          activateErr host Errno.enodev.neg
            (d.devErr "dev_led: failed to allocate workqueue\n")
        else
          let d := d.modifyPriv p fun priv => { priv with workqueue := .running [] }
          let init := devLedsInit host env.register p base parsed.1.numLeds 0 0 d
          if init.2.oops then init
          else if init.1 < 0 then activateErr host init.1 (init.2.devErr "dev_leds_init failed\n")
          else (0, init.2)

/-- The body of `led_dev_enable` and `led_dev_disable`. -/
def ledDevSetDisabled (disabled : Bool) (d : Dev σ) : Dev σ :=
  match d.drvdata with
  | none => d
  | some p => d.modifyPriv p fun priv =>
      let flags := setDisabled disabled (fun i => (priv.leds i).toDevLed) 0 priv.numLeds
      { priv with leds := fun i => { priv.leds i with toDevLed := flags i } }

/-- `led_dev_enable` -/
def ledDevEnable : Dev σ → Dev σ := ledDevSetDisabled false

/-- `led_dev_disable` -/
def ledDevDisable : Dev σ → Dev σ := ledDevSetDisabled true

end Functions

/-! ## What brightness sets leave alone -/

section Calm

variable {σ : Type} (host : Host σ) {d d' d'' : Dev σ}

/-- Nothing changed but registers, waiting work and records; the LED core was asked for `cs`. -/
structure Calm (cs : List CoreCall) (d d' : Dev σ) : Prop where
  drvdata : d'.drvdata = d.drvdata
  allocated : d'.allocated = d.allocated
  core : d'.core = d.core ++ cs
  privs : ∀ p, d'.privs p = { d.privs p with workqueue := (d'.privs p).workqueue }
  running : ∀ p, (d'.privs p).workqueue.isRunning = (d.privs p).workqueue.isRunning
  calls : d.calls ⊆ d'.calls
  oops : d'.oops = d.oops

theorem Calm.refl (d : Dev σ) : Calm [] d d :=
  ⟨rfl, rfl, (List.append_nil _).symm, fun _ => rfl, fun _ => rfl, List.Subset.refl _, rfl⟩

theorem Calm.trans {cs cs' : List CoreCall} (h : Calm cs d d') (h' : Calm cs' d' d'') :
    Calm (cs ++ cs') d d'' where
  drvdata := h'.drvdata.trans h.drvdata
  allocated := h'.allocated.trans h.allocated
  core := by rw [h'.core, h.core, List.append_assoc]
  privs p := by rw [h'.privs p, h.privs p]
  running p := (h'.running p).trans (h.running p)
  calls := List.Subset.trans h.calls h'.calls
  oops := h'.oops.trans h.oops

/-- Calls that leave even the workqueues alone. -/
theorem calm_of_privs (hdrvdata : d'.drvdata = d.drvdata) (hallocated : d'.allocated = d.allocated)
    (hcore : d'.core = d.core) (hprivs : d'.privs = d.privs) (hcalls : d.calls ⊆ d'.calls)
    (hoops : d'.oops = d.oops) : Calm [] d d' where
  drvdata := hdrvdata
  allocated := hallocated
  core := by rw [hcore, List.append_nil]
  privs _ := by rw [hprivs]
  running _ := by rw [hprivs]
  calls := hcalls
  oops := hoops

theorem setNow_calm (d : Dev σ) (cdev : Cdev) (v : Brightness) : Calm [] d (d.setNow host cdev v) :=
  calm_of_privs rfl rfl rfl rfl (List.Subset.refl _) rfl

theorem enbRegSet_calm (d : Dev σ) (cdev : Cdev) : Calm [] d (d.enbRegSet host cdev) :=
  calm_of_privs rfl rfl rfl rfl (List.Subset.refl _) rfl

@[simp] theorem isRunning_queueWork (item : Cdev × Brightness) (queue : Workqueue) :
    (queue.queueWork item).isRunning = queue.isRunning := by
  cases queue <;> rfl

theorem devLedsBrightnessSet_calm (hdata : d.drvdata ≠ none) (cdev : Cdev) (v : Brightness) :
    Calm [] d (devLedsBrightnessSet host d cdev v) := by
  unfold devLedsBrightnessSet
  split
  · next hnone => exact absurd hnone hdata
  · next q _ =>
    dsimp only
    split
    · split
      · -- the item waits on the queue of `q`
        refine ⟨rfl, rfl, (List.append_nil _).symm, fun p => ?_, fun p => ?_,
          List.subset_append_left _ _, rfl⟩
        · by_cases hp : p = q
          · subst hp
            simp only [Dev.modifyPriv, Function.update_self]
          · simp only [Dev.modifyPriv, Function.update_of_ne hp]
        · by_cases hp : p = q
          · subst hp
            simp only [Dev.modifyPriv, Function.update_self, isRunning_queueWork]
          · simp only [Dev.modifyPriv, Function.update_of_ne hp]
      · exact calm_of_privs rfl rfl rfl rfl (List.subset_append_left _ _) rfl
    · exact calm_of_privs rfl rfl rfl rfl (List.subset_append_left _ _) rfl

/-- Setting the LED finds private data, or does not look for it. -/
def Dev.Survives (d : Dev σ) (cdev : Cdev) : Prop :=
  d.drvdata ≠ none ∨ (d.led cdev).brightnessSet ≠ some .devLedsBrightnessSet

theorem set_calm {cdev : Cdev} (hsafe : d.Survives cdev) (v : Brightness) :
    Calm [] d (d.set host cdev v) := by
  unfold Dev.set
  split
  · exact .refl d
  · next hcallback =>
    exact devLedsBrightnessSet_calm host (hsafe.resolve_right (· hcallback)) cdev v
  · exact setNow_calm host d cdev v

/-- The thread dies in a LED that looks for private data where there is none. -/
theorem set_dies {cdev : Cdev} (hnone : d.drvdata = none)
    (hcallback : (d.led cdev).brightnessSet = some .devLedsBrightnessSet) (v : Brightness) :
    d.set host cdev v = { d with calls := d.calls ++ [.nullDrvdata], oops := true } := by
  unfold Dev.set
  rw [hcallback]
  dsimp only
  unfold devLedsBrightnessSet
  rw [hnone]

theorem register_calm (d : Dev σ) (cdev : Cdev) : Calm [.register cdev] d (d.register cdev) :=
  ⟨rfl, rfl, rfl, fun _ => rfl, fun _ => rfl, List.Subset.refl _, rfl⟩

theorem unregister_calm {cdev : Cdev} (hsafe : d.Survives cdev) :
    Calm [.unregister cdev] d (d.unregister host cdev) := by
  have hasked : Calm [.unregister cdev] d { d with core := d.core ++ [.unregister cdev] } :=
    ⟨rfl, rfl, rfl, fun _ => rfl, fun _ => rfl, List.Subset.refl _, rfl⟩
  exact hasked.trans (set_calm host (d := { d with core := d.core ++ [.unregister cdev] }) hsafe
    ledOff)

theorem entered_of_alive (halive : d.oops = false) : d.entered = d := by
  obtain ⟨privs, allocated, drvdata, regs, core, calls, msgs, oops⟩ := d
  cases halive
  rfl

theorem next_alive (halive : d.oops = false) (f : Dev σ → Dev σ) : d.next f = f d := by
  unfold Dev.next
  rw [halive]
  rfl

theorem next_dead (hdead : d.oops = true) (f : Dev σ → Dev σ) : d.next f = d := by
  unfold Dev.next
  rw [hdead]
  rfl

/-- The first `n` LEDs of private data `p`. -/
def cdevs (p n : Nat) : List Cdev := (List.range n).map fun i => (p, i)

theorem cdevs_succ (p n : Nat) : cdevs p (n + 1) = cdevs p n ++ [(p, n)] := by
  unfold cdevs
  rw [List.range_succ, List.map_append, List.map_singleton]

theorem Calm.led {cs : List CoreCall} (h : Calm cs d d') (cdev : Cdev) :
    d'.led cdev = d.led cdev := by
  unfold Dev.led
  rw [h.privs]

theorem Calm.survives {cs : List CoreCall} (h : Calm cs d d') {cdev : Cdev}
    (hsafe : d.Survives cdev) : d'.Survives cdev := by
  unfold Dev.Survives
  rw [h.drvdata, h.led]
  exact hsafe

theorem unwind_calm {p i : Nat} (halive : d.oops = false)
    (hsafe : ∀ j, j < i → d.Survives (p, j)) :
    Calm ((cdevs p i).reverse.map .unregister) d (d.unwind host p i) := by
  induction i generalizing d with
  | zero => exact .refl d
  | succ i ih =>
    have hcalm := unregister_calm host (hsafe i (Nat.lt_succ_self i))
    have halive' := hcalm.oops.trans halive
    rw [cdevs_succ, List.reverse_append, List.reverse_singleton, List.singleton_append,
      List.map_cons, Dev.unwind, next_alive halive']
    exact hcalm.trans (ih halive' fun j hj => hcalm.survives (hsafe j (Nat.lt_succ_of_lt hj)))

theorem cleanup_calm {p num : Nat} (halive : d.oops = false)
    (hsafe : ∀ j, j < num → d.Survives (p, j)) :
    Calm ((cdevs p num).map .unregister) d (devLedsCleanup host p num d) := by
  induction num with
  | zero => exact .refl d
  | succ num ih =>
    have hcalm := ih fun j hj => hsafe j (Nat.lt_succ_of_lt hj)
    rw [cdevs_succ, List.map_append, List.map_singleton, devLedsCleanup,
      next_alive (hcalm.oops.trans halive)]
    exact hcalm.trans (unregister_calm host (hcalm.survives (hsafe num (Nat.lt_succ_self num))))

/-- Without private data, the first LED that looks for it is also the last that is unregistered. -/
theorem cleanup_dies {p num : Nat} (halive : d.oops = false) (hnone : d.drvdata = none)
    (hcallback : (d.led (p, 0)).brightnessSet = some .devLedsBrightnessSet) (hnum : 0 < num) :
    devLedsCleanup host p num d = { d with
      core := d.core ++ [.unregister (p, 0)]
      calls := d.calls ++ [.nullDrvdata]
      oops := true } := by
  induction num with
  | zero => exact absurd hnum (Nat.lt_irrefl 0)
  | succ num ih =>
    rcases Nat.eq_zero_or_pos num with rfl | hpos
    · rw [devLedsCleanup, devLedsCleanup, next_alive halive]
      exact set_dies host (d := { d with core := d.core ++ [.unregister (p, 0)] }) hnone hcallback
        ledOff
    · rw [devLedsCleanup, ih hpos, next_dead rfl]

theorem complete_led_self (d : Dev σ) (p i : Nat) (devBase : Iomem) :
    (d.complete p i devBase).led (p, i) = (d.led (p, i)).complete devBase := by
  simp only [Dev.led, Dev.complete, Dev.modifyPriv, Function.update_self]

theorem complete_led_of_ne (d : Dev σ) {p i : Nat} (devBase : Iomem) {cdev : Cdev}
    (hne : cdev ≠ (p, i)) : (d.complete p i devBase).led cdev = d.led cdev := by
  obtain ⟨q, j⟩ := cdev
  simp only [Dev.led, Dev.complete, Dev.modifyPriv]
  by_cases hq : q = p
  · subst hq
    have hj : j ≠ i := fun hj => hne (Prod.ext rfl hj)
    simp only [Function.update_self, Function.update_of_ne hj]
  · simp only [Function.update_of_ne hq]

/-- Nothing changed but registers, messages, and which private data and workqueue are in use. -/
structure Frame (d d' : Dev σ) : Prop where
  allocated : d'.allocated = d.allocated
  core : d'.core = d.core
  calls : d'.calls = d.calls
  oops : d'.oops = d.oops
  numLeds : ∀ p, (d'.privs p).numLeds = (d.privs p).numLeds
  led : ∀ cdev, d'.led cdev = d.led cdev

theorem Frame.refl (d : Dev σ) : Frame d d := ⟨rfl, rfl, rfl, rfl, fun _ => rfl, fun _ => rfl⟩

theorem modifyPriv_frame (d : Dev σ) (p : Nat) {f : Priv → Priv}
    (hnum : ∀ priv, (f priv).numLeds = priv.numLeds) (hleds : ∀ priv, (f priv).leds = priv.leds) :
    Frame d (d.modifyPriv p f) := by
  refine ⟨rfl, rfl, rfl, rfl, fun q => ?_, fun cdev => ?_⟩
  · by_cases hq : q = p
    · subst hq
      simp only [Dev.modifyPriv, Function.update_self, hnum]
    · simp only [Dev.modifyPriv, Function.update_of_ne hq]
  · by_cases hq : cdev.1 = p
    · subst hq
      simp only [Dev.led, Dev.modifyPriv, Function.update_self, hleds]
    · simp only [Dev.led, Dev.modifyPriv, Function.update_of_ne hq]

theorem setAll_frame (items : List (Cdev × Brightness)) (d : Dev σ) :
    Frame d (d.setAll host items) := by
  induction items generalizing d with
  | nil => exact .refl d
  | cons item items ih =>
    obtain ⟨hallocated, hcore, hcalls, hoops, hnum, hled⟩ := ih (d.setNow host item.1 item.2)
    exact ⟨hallocated, hcore, hcalls, hoops, hnum, hled⟩

theorem Frame.trans (h : Frame d d') (h' : Frame d' d'') : Frame d d'' where
  allocated := h'.allocated.trans h.allocated
  core := h'.core.trans h.core
  calls := h'.calls.trans h.calls
  oops := h'.oops.trans h.oops
  numLeds p := (h'.numLeds p).trans (h.numLeds p)
  led cdev := (h'.led cdev).trans (h.led cdev)

theorem destroyWorkqueue_frame (d : Dev σ) (p : Nat) : Frame d (d.destroyWorkqueue host p) := by
  unfold Dev.destroyWorkqueue
  split
  · next pending _ =>
    exact (setAll_frame host pending d).trans
      (modifyPriv_frame _ p (fun _ => rfl) fun _ => rfl)
  · exact .refl d

/-- Deactivating is `dev_leds_cleanup` on a device without private data, but for the frame. -/
theorem deactivate_cleanup {p : Nat} (hactive : d.drvdata = some p) :
    ∃ d', Frame d d' ∧ d'.drvdata = none ∧
      (ledDevDeactivate host d).2.drvdata =
        (devLedsCleanup host p (d.privs p).numLeds d').drvdata ∧
      Frame (devLedsCleanup host p (d.privs p).numLeds d') (ledDevDeactivate host d).2 := by
  have hdestroy := destroyWorkqueue_frame host d p
  refine ⟨{ d.destroyWorkqueue host p with drvdata := none }, ?_, rfl, ?_⟩
  · exact ⟨hdestroy.allocated, hdestroy.core, hdestroy.calls, hdestroy.oops, hdestroy.numLeds,
      hdestroy.led⟩
  · unfold ledDevDeactivate
    rw [hactive]
    dsimp only
    rw [hdestroy.numLeds]
    generalize devLedsCleanup host p (d.privs p).numLeds _ = cleaned
    cases hoops : cleaned.oops with
    | true =>
      rw [next_dead hoops]
      exact ⟨rfl, .refl cleaned⟩
    | false =>
      rw [next_alive hoops]
      exact ⟨rfl, modifyPriv_frame cleaned p (fun _ => rfl) fun _ => rfl⟩

/-- Deactivating asks the LED core to unregister every LED that was counted, if none of them looks
for private data. -/
theorem deactivate_calm {p : Nat} (hactive : d.drvdata = some p) (halive : d.oops = false)
    (hplain : ∀ i, i < (d.privs p).numLeds →
      (d.led (p, i)).brightnessSet ≠ some .devLedsBrightnessSet) :
    (ledDevDeactivate host d).2.oops = false ∧ (ledDevDeactivate host d).2.core =
      d.core ++ (cdevs p (d.privs p).numLeds).map .unregister := by
  obtain ⟨d', hframe, -, -, hcleanup⟩ := deactivate_cleanup host hactive
  have hsafe : ∀ i, i < (d.privs p).numLeds → d'.Survives (p, i) :=
    fun i hi => .inr (by rw [hframe.led]; exact hplain i hi)
  have hcalm := cleanup_calm host (hframe.oops.trans halive) hsafe
  rw [hcleanup.oops, hcleanup.core, hcalm.oops, hcalm.core, hframe.oops, hframe.core]
  exact ⟨halive, rfl⟩

/-- A device whose first LED looks for private data is not deactivated to the end. -/
theorem deactivate_dies {p : Nat} (hactive : d.drvdata = some p) (halive : d.oops = false)
    (hnum : 0 < (d.privs p).numLeds)
    (hcallback : (d.led (p, 0)).brightnessSet = some .devLedsBrightnessSet) :
    (ledDevDeactivate host d).2.oops = true ∧
      (ledDevDeactivate host d).2.core = d.core ++ [.unregister (p, 0)] ∧
      (ledDevDeactivate host d).2.calls = d.calls ++ [.nullDrvdata] := by
  obtain ⟨d', hframe, hnone, -, hcleanup⟩ := deactivate_cleanup host hactive
  have hdies := cleanup_dies host (d := d') (hframe.oops.trans halive) hnone
    (by rw [hframe.led]; exact hcallback) hnum
  rw [hcleanup.oops, hcleanup.core, hcleanup.calls, hdies]
  refine ⟨rfl, ?_, ?_⟩
  · exact congrArg (· ++ _) hframe.core
  · exact congrArg (· ++ _) hframe.calls

end Calm

/-! ## What parsing yields -/

/-- All mandatory properties are there, and no property is of the wrong size. -/
def Child.valid (child : Child) : Bool :=
  child.ledName.isSome && (cell child.regOffset).isSome &&
    (cell (child.bitIndex.or child.regIndex)).isSome &&
    (child.initialBrightness.isNone || (cell child.initialBrightness).isSome) &&
    (child.activeLow.isNone || (cell child.activeLow).isSome)

/-- What `dev_leds_init` is to install as `brightness_set`. -/
def handed (useWorkqueue : Bool) : Option SetFn :=
  if useWorkqueue then some .devLedsBrightnessSet else none

theorem optionalCell_ok (property : String) {value : Option (List Byte)}
    (h : (value.isNone || (cell value).isSome) = true) :
    ∃ x, optionalCell property value = .ok x := by
  unfold optionalCell
  cases value with
  | none => exact ⟨0, rfl⟩
  | some bytes =>
    obtain ⟨x, hx⟩ := Option.isSome_iff_exists.mp h
    rw [hx]
    exact ⟨x, rfl⟩

theorem optionalCell_error (property : String) {value : Option (List Byte)}
    (h : (value.isNone || (cell value).isSome) = false) :
    optionalCell property value = .error property := by
  unfold optionalCell
  cases value with
  | none => cases h
  | some bytes =>
    have hcell : cell (some bytes) = none := by
      cases hcase : cell (some bytes) with
      | none => rfl
      | some x =>
        rw [hcase] at h
        cases h
    rw [hcell]
    rfl

/-- What the loop body finds in a child that is valid. -/
theorem valid_properties {child : Child} (hvalid : child.valid = true) :
    ∃ name offset index brightness low, child.ledName = some name ∧
      cell child.regOffset = some offset ∧ cell (child.bitIndex.or child.regIndex) = some index ∧
      optionalCell "initial-brightness" child.initialBrightness = .ok brightness ∧
      optionalCell "active_low" child.activeLow = .ok low := by
  simp only [Child.valid, Bool.and_eq_true] at hvalid
  obtain ⟨⟨⟨⟨hname, hoffset⟩, hindex⟩, hbrightness⟩, hlow⟩ := hvalid
  obtain ⟨name, hname⟩ := Option.isSome_iff_exists.mp hname
  obtain ⟨offset, hoffset⟩ := Option.isSome_iff_exists.mp hoffset
  obtain ⟨index, hindex⟩ := Option.isSome_iff_exists.mp hindex
  obtain ⟨brightness, hbrightness⟩ := optionalCell_ok "initial-brightness" hbrightness
  obtain ⟨low, hlow⟩ := optionalCell_ok "active_low" hlow
  exact ⟨name, offset, index, brightness, low, hname, hoffset, hindex, hbrightness, hlow⟩

theorem parseChild_valid (useWorkqueue : Bool) {child : Child} (hvalid : child.valid = true) :
    ∃ led, parseChild useWorkqueue child = .ok led ∧
      led.ledBrightnessSet = handed useWorkqueue ∧ led.brightnessSet = none := by
  obtain ⟨name, offset, index, brightness, low, hname, hoffset, hindex, hbrightness, hlow⟩ :=
    valid_properties hvalid
  unfold parseChild
  rw [hname, hoffset, hindex, hbrightness, hlow]
  exact ⟨_, rfl, rfl, rfl⟩

/-- The first property that is not valid is reported. -/
theorem parseChild_invalid (useWorkqueue : Bool) {child : Child} (hvalid : child.valid = false) :
    ∃ property, parseChild useWorkqueue child = .error property := by
  unfold parseChild
  unfold Child.valid at hvalid
  cases hname : child.ledName with
  | none => exact ⟨_, rfl⟩
  | some name =>
    cases hoffset : cell child.regOffset with
    | none => exact ⟨_, rfl⟩
    | some offset =>
      cases hindex : cell (child.bitIndex.or child.regIndex) with
      | none => exact ⟨_, rfl⟩
      | some index =>
        cases hbrightness :
            (child.initialBrightness.isNone || (cell child.initialBrightness).isSome) with
        | false =>
          rw [optionalCell_error "initial-brightness" hbrightness]
          exact ⟨_, rfl⟩
        | true =>
          obtain ⟨brightness, hok⟩ := optionalCell_ok "initial-brightness" hbrightness
          rw [hname, hoffset, hindex, hbrightness] at hvalid
          rw [hok, optionalCell_error "active_low" hvalid]
          exact ⟨_, rfl⟩

/-- Private data while the children are parsed. -/
structure Parsed (priv : Priv) : Prop where
  workqueue : priv.workqueue = .null
  callbacks : ∀ i, (priv.leds i).brightnessSet = none
  handed : ∀ i, i < priv.numLeds → (priv.leds i).ledBrightnessSet = handed priv.useWorkqueue

theorem Parsed.zero : Parsed .zero where
  workqueue := rfl
  callbacks _ := rfl
  handed _ hi := absurd hi (Nat.not_lt_zero _)

theorem Parsed.mapped (base : Iomem) (useWorkqueue : Bool) :
    Parsed (.mapped base useWorkqueue) where
  workqueue := rfl
  callbacks _ := rfl
  handed _ hi := absurd hi (Nat.not_lt_zero _)

theorem parseChildren_spec (children : List Child) {priv : Priv} (h : Parsed priv) :
    Parsed (parseChildren children priv).1 ∧
    (parseChildren children priv).1.useWorkqueue = priv.useWorkqueue ∧
    (parseChildren children priv).1.numLeds =
      priv.numLeds + (children.takeWhile Child.valid).length ∧
    ((parseChildren children priv).2 = none ↔ ∀ child ∈ children, child.valid = true) := by
  induction children generalizing priv with
  | nil => exact ⟨h, rfl, rfl, iff_of_true rfl fun _ hc => absurd hc List.not_mem_nil⟩
  | cons child children ih =>
    unfold parseChildren
    cases hvalid : child.valid with
    | false =>
      obtain ⟨property, hparse⟩ := parseChild_invalid priv.useWorkqueue hvalid
      rw [hparse, List.takeWhile_cons, hvalid]
      refine ⟨h, rfl, rfl, iff_of_false nofun fun hall => ?_⟩
      exact Bool.false_ne_true (hvalid.symm.trans (hall child List.mem_cons_self))
    | true =>
      obtain ⟨led, hparse, hhanded, hnone⟩ := parseChild_valid priv.useWorkqueue hvalid
      rw [hparse]
      -- one more LED, and the rest by induction
      have hnext : Parsed { priv with
          leds := Function.update priv.leds priv.numLeds led, numLeds := priv.numLeds + 1 } := by
        refine ⟨h.workqueue, fun i => ?_, fun i hi => ?_⟩
        · by_cases hlast : i = priv.numLeds
          · subst hlast
            exact (congrArg LedDat.brightnessSet (Function.update_self ..)).trans hnone
          · exact (congrArg LedDat.brightnessSet (Function.update_of_ne hlast ..)).trans
              (h.callbacks i)
        · by_cases hlast : i = priv.numLeds
          · subst hlast
            exact (congrArg LedDat.ledBrightnessSet (Function.update_self ..)).trans hhanded
          · exact (congrArg LedDat.ledBrightnessSet (Function.update_of_ne hlast ..)).trans
              (h.handed i (Nat.lt_of_le_of_ne (Nat.le_of_lt_succ hi) hlast))
      obtain ⟨hparsed, huse, hnum, hnone'⟩ := ih hnext
      refine ⟨hparsed, huse, ?_, ?_⟩
      · dsimp only at hnum ⊢
        rw [hnum, List.takeWhile_cons, hvalid, if_pos rfl, List.length_cons]
        omega
      · rw [List.forall_mem_cons]
        exact hnone'.trans (and_iff_right hvalid).symm

/-! ## How an activation ends -/

section Exit

variable {σ : Type}

/-- The private data is allocated. -/
def Env.Starts (env : Env) : Prop :=
  env.children ≠ [] ∧ env.compatible = true ∧ env.devmKzalloc = true

/-- `dev_leds_init` is called. -/
def Env.Inits (env : Env) : Prop :=
  env.Starts ∧ env.ofIomap.isSome = true ∧ (∀ child ∈ env.children, child.valid = true) ∧
    env.createWorkqueue = true

/-- `priv->num_leds` after parsing. -/
def Env.numLeds (env : Env) : Nat :=
  if env.ofIomap.isSome then (env.children.takeWhile Child.valid).length else 0

/-- The ends of `led_dev_activate`, with what is known of the private data there. -/
inductive Exit (host : Host σ) (env : Env) (d : Dev σ) : Int × Dev σ → Prop
  | empty : env.children = [] → Exit host env d (0, d)
  | early {ret : Int} {msg : String} : env.children ≠ [] → ¬ env.Starts → ret < 0 →
      Exit host env d (activateErr host ret (d.devErr msg))
  | late {ret : Int} {msg : String} {priv : Priv} : env.Starts → ¬ env.Inits → ret < 0 →
      Parsed priv → priv.numLeds = env.numLeds →
      Exit host env d
        (activateErr host ret ((d.allocate.modifyPriv d.allocated fun _ => priv).devErr msg))
  | init {base : Iomem} {priv : Priv} : env.Inits → Parsed priv →
      priv.useWorkqueue = env.useWorkqueue → priv.numLeds = env.children.length →
      Exit host env d
        (let init := devLedsInit host env.register d.allocated base priv.numLeds 0 0
          (d.allocate.modifyPriv d.allocated fun _ => { priv with workqueue := .running [] })
        if init.2.oops then init
        else if init.1 < 0 then activateErr host init.1 (init.2.devErr "dev_leds_init failed\n")
        else (0, init.2))

theorem modifyPriv_modifyPriv (d : Dev σ) (p : Nat) (priv : Priv) (f : Priv → Priv) :
    (d.modifyPriv p fun _ => priv).modifyPriv p f = d.modifyPriv p fun _ => f priv := by
  simp only [Dev.modifyPriv, Function.update_self, Function.update_idem]

theorem allocate_modifyPriv_zero (d : Dev σ) :
    (d.allocate.modifyPriv d.allocated fun _ => .zero) = d.allocate := by
  simp only [Dev.allocate, Dev.modifyPriv, Function.update_idem]

/-- The LEDs of private data that was allocated and filled. -/
theorem allocate_led (d : Dev σ) (priv : Priv) (i : Nat) :
    (d.allocate.modifyPriv d.allocated fun _ => priv).led (d.allocated, i) = priv.leds i := by
  simp only [Dev.led, Dev.modifyPriv, Function.update_self]

theorem activate_exit (host : Host σ) (env : Env) (d : Dev σ) :
    Exit host env d.entered (ledDevActivate host env d) := by
  unfold ledDevActivate
  generalize d.entered = d
  dsimp only
  split
  · next hempty => exact .empty hempty
  · next hsome =>
    split
    · next hcompatible =>
      refine .early hsome (fun hstarts => ?_) (Errno.neg_lt_zero _)
      rw [hstarts.2.1] at hcompatible
      cases hcompatible
    · next hcompatible =>
      split
      · next halloc =>
        refine .early hsome (fun hstarts => ?_) (Errno.neg_lt_zero _)
        rw [hstarts.2.2] at halloc
        cases halloc
      · next halloc =>
        -- from here on there is private data, which the error path takes down
        have hstarts : env.Starts := ⟨hsome, by simpa using hcompatible, by simpa using halloc⟩
        split
        · next hunmapped =>
          have hinits : ¬ env.Inits := by
            rintro ⟨-, hmapped, -⟩
            rw [hunmapped] at hmapped
            cases hmapped
          have hnum : Priv.zero.numLeds = env.numLeds := by
            unfold Env.numLeds
            rw [hunmapped]
            rfl
          rw [← allocate_modifyPriv_zero]
          exact .late hstarts hinits (Errno.neg_lt_zero _) Parsed.zero hnum
        · next base hmapped =>
          obtain ⟨hparsed, huse, hnum, hnone⟩ :=
            parseChildren_spec env.children (Parsed.mapped base env.useWorkqueue)
          have hcount : env.numLeds = (env.children.takeWhile Child.valid).length := by
            unfold Env.numLeds
            rw [hmapped]
            rfl
          replace hnum := hnum.trans ((Nat.zero_add _).trans hcount.symm)
          split
          · next hproperty =>
            have hinits : ¬ env.Inits := by
              rintro ⟨-, -, hall, -⟩
              rw [hnone.mpr hall] at hproperty
              cases hproperty
            exact .late hstarts hinits (Errno.neg_lt_zero _) hparsed hnum
          · next hproperty =>
            have hall := hnone.mp hproperty
            split
            · next hcreate =>
              have hinits : ¬ env.Inits := by
                rintro ⟨-, -, -, hcreated⟩
                rw [hcreated] at hcreate
                cases hcreate
              exact .late hstarts hinits (Errno.neg_lt_zero _) hparsed hnum
            · next hcreate =>
              have hinits : env.Inits :=
                ⟨hstarts, by rw [hmapped]; rfl, hall, by simpa using hcreate⟩
              rw [modifyPriv_modifyPriv]
              refine .init hinits hparsed huse (hnum.trans (hcount.trans ?_))
              rw [List.takeWhile_eq_self_iff.mpr hall]

end Exit

end LinuxDeviceDriver.Led
