import LinuxDeviceDriver.Gfifo.Contract
import Mathlib.Data.Finset.Card

/-!
# Sixteen FIFOs: gfifo_misc_n and its platform devices

Two modules make up the variant. `gfifo_platform_device_n` puts the platform devices `gfifo.0` to
`gfifo.15` on the bus. `gfifo_misc_n` is their driver: for each of them `gfifo_probe` allocates a
`struct gfifo_dev` and registers a misc device, and `gfifo_remove` deregisters it and frees the
structure. An open file points at the structure of its device.

Loading and unloading are loops over the sixteen devices, and every turn of a loop is a step of its
own, so that user space opens, uses and closes the files of the other devices in between. A module
is unloaded only when its use count is 0. Open files count for the driver (`.owner = THIS_MODULE`)
and not for the module of the devices, so unregistering a device takes it from under its files.

- `gfifo_devices_isolated`: when devices go only while no file is open on them, no access ever
  meets freed memory, and each device is in the state its own files have brought about, as if it
  were alone.
- `gfifo_devices_failed_load`: when the loop that adds the devices fails behind its first turn, the
  devices it has added stay for good, and the module can never be loaded again.
-/

namespace LinuxDeviceDriver.Gfifo.Devices

open Lib

/-- `DEVICE_NUM` -/
def deviceNum : Nat := 0x10

/-- `GFIFO_SIZE` of gfifo_misc_n -/
def gfifoSize : Nat := 0x100

/-! ## Model -/

/-- A call through an open file; `gfifo_read` and `gfifo_write` by their stays in the mutex. -/
inductive Use (T : Type)
  | stay (e : Event T)
  | ioctl (cmd : Nat)
  | poll

/-- `struct file`: the device node it was opened on, its `private_data`, and the callers that sleep
in a read or write through it. -/
structure File (T : Type) where
  node : Nat
  dev : Nat
  asleep : List T

/-- A module: not there, in its init function, loaded, in its exit function. The two functions are
loops over the devices. -/
inductive Phase
  | out
  | coming (i : Nat)
  | live
  | going (i : Nat)
deriving DecidableEq

/-- The next turn of the loop of an init or exit function, or what comes after the last one. -/
def Phase.next (turn : Nat → Phase) (done : Phase) (i : Nat) : Phase :=
  if i + 1 = deviceNum then done else turn (i + 1)

/-- The driver is on the bus and its module can be pinned. -/
def Phase.attached : Phase → Bool
  | .coming _ => true
  | .live => true
  | _ => false

/-- What `gfifo_probe` is given: an address by `kzalloc`, or none, and whether `misc_register`
succeeds. -/
structure ProbeEnv where
  kzalloc : Option Nat
  miscRegister : Bool

structure State (F T : Type) where
  /-- The `struct gfifo_dev`s that are allocated, by address. -/
  heap : Nat → Option (Fifo T)
  /-- The platform devices on the bus, and the driver data of those that are bound. -/
  bus : Nat → Option (Option Nat)
  devices : Phase
  driver : Phase
  files : F → Option (File T)
  /-- The use count of the driver's module. -/
  refs : Nat
  /-- Structures of probes that have failed behind `kzalloc`. -/
  leaked : List Nat
  /-- What has been done through the files of a node since it was bound. -/
  uses : Nat → List (Use T)
  /-- Some call has used a structure that was freed. -/
  fault : Bool

inductive Action (F T : Type)
  | insmodDevices
  /-- A turn of the loop in `gfifo_device_init`, with what `platform_device_alloc` and
  `platform_device_add` give. -/
  | addDevice (alloc : Bool) (add : Option Errno) (env : ProbeEnv)
  | rmmodDevices
  | unregisterDevice
  | insmodDriver
  | attach (env : ProbeEnv)
  | rmmodDriver
  | detach
  /-- `bind` and `unbind` of the driver in sysfs -/
  | bind (i : Nat) (env : ProbeEnv)
  | unbind (i : Nat)
  | openNode (f : F) (node : Nat)
  | use (f : F) (u : Use T)
  | close (f : F)

section System

variable {F T : Type} [DecidableEq F] [DecidableEq T]

def State.start : State F T where
  heap := fun _ => none
  bus := fun _ => none
  devices := .out
  driver := .out
  files := fun _ => none
  refs := 0
  leaked := []
  uses := fun _ => []
  fault := false

/-- The device at the end of a call, or of a stay. -/
def Use.run (d : Fifo T) : Use T → Option (Fifo T)
  | .stay e => Gfifo.step gfifoSize d e
  | .ioctl cmd => some { d with dev := (gfifoIoctl gfifoSize cmd d.dev).2 }
  | .poll => some d

/-- A caller comes back from `schedule()` to the file it has slept on. -/
def File.admits (file : File T) : Use T → Bool
  | .stay (.wake t _) => t ∈ file.asleep
  | _ => true

/-- The callers asleep after a call. -/
def File.settle (file : File T) (d : Fifo T) : Use T → File T
  | .stay (.enter t _) | .stay (.wake t _) =>
    { file with
      asleep := if (d.asleep t).isSome then t :: file.asleep.erase t else file.asleep.erase t }
  | _ => file

/-- `gfifo_probe`. `kzalloc` gives no address that is in use. -/
def State.probe (s : State F T) (i : Nat) (env : ProbeEnv) : Option (State F T) :=
  match env.kzalloc with
  | none => some s
  | some a =>
    if (s.heap a).isSome then none
    else if env.miscRegister then
      some { s with
        heap := Function.update s.heap a (some .fresh)
        bus := Function.update s.bus i (some (some a))
        uses := Function.update s.uses i [] }
    else
      -- the error is returned, and the structure is not freed
      some { s with heap := Function.update s.heap a (some .fresh), leaked := a :: s.leaked }

/-- `gfifo_remove` of a device, if it is bound. -/
def State.remove (s : State F T) (i : Nat) : State F T :=
  match s.bus i with
  | some (some a) =>
    { s with
      heap := Function.update s.heap a none
      bus := Function.update s.bus i (some none)
      fault := s.fault || (s.heap a).isNone }
  | _ => s

/-- A turn of the loop in `gfifo_device_init`; a device whose name is on the bus cannot be added. -/
def State.addDevice (s : State F T) (i : Nat) (alloc : Bool) (add : Option Errno)
    (env : ProbeEnv) : Option (State F T) :=
  match alloc, s.bus i, add with
  | true, none, none =>
    let s := { s with
      bus := Function.update s.bus i (some none)
      devices := Phase.next .coming .live i }
    if s.driver.attached then s.probe i env else some s
  | _, _, _ => some { s with devices := .out }

/-- A turn of the loop in `gfifo_device_exit`. -/
def State.unregisterDevice (s : State F T) (i : Nat) : State F T :=
  { s.remove i with
    bus := Function.update (s.remove i).bus i none
    devices := Phase.next .going .out i }

/-- A device on the bus that has no driver is probed. -/
def State.attach (s : State F T) (i : Nat) (env : ProbeEnv) : Option (State F T) :=
  match s.bus i with
  | some none => s.probe i env
  | _ => some s

def step (s : State F T) : Action F T → Option (State F T)
  | .insmodDevices =>
    if s.devices = .out then some { s with devices := .coming 0 } else none
  | .addDevice alloc add env =>
    match s.devices with
    | .coming i => s.addDevice i alloc add env
    | _ => none
  | .rmmodDevices =>
    if s.devices = .live then some { s with devices := .going 0 } else none
  | .unregisterDevice =>
    match s.devices with
    | .going i => some (s.unregisterDevice i)
    | _ => none
  | .insmodDriver =>
    if s.driver = .out then some { s with driver := .coming 0 } else none
  | .attach env =>
    match s.driver with
    | .coming i => { s with driver := Phase.next .coming .live i }.attach i env
    | _ => none
  | .rmmodDriver =>
    if s.driver = .live ∧ s.refs = 0 then some { s with driver := .going 0 } else none
  | .detach =>
    match s.driver with
    | .going i => some { s.remove i with driver := Phase.next .going .out i }
    | _ => none
  | .bind i env => if s.driver.attached then s.attach i env else none
  | .unbind i => if s.driver.attached then some (s.remove i) else none
  | .openNode f node =>
    match s.files f, s.bus node with
    | none, some (some a) =>
      if s.driver.attached then
        some { s with
          files := Function.update s.files f (some ⟨node, a, []⟩)
          refs := s.refs + 1 }
      else none
    | _, _ => none
  | .use f u =>
    match s.files f with
    | none => none
    | some file =>
      if file.admits u then
        match s.heap file.dev with
        | none => some { s with fault := true }
        | some d => (u.run d).map fun d' =>
          { s with
            heap := Function.update s.heap file.dev (some d')
            files := Function.update s.files f (some (file.settle d' u))
            uses := Function.update s.uses file.node (s.uses file.node ++ [u]) }
      else none
  | .close f =>
    match s.files f with
    | none => none
    | some file =>
      if file.asleep = [] then
        -- gfifo_release looks at dev->async_queue
        some { s with
          files := Function.update s.files f none
          refs := s.refs - 1
          fault := s.fault || (s.heap file.dev).isNone }
      else none

end System

/-! ## The devices on the bus -/

section Bus

variable {F T : Type} {s s' : State F T} {i : Nat} {env : ProbeEnv}

/-- What `gfifo_probe` can do. -/
theorem probe_cases (h : s.probe i env = some s') :
    s' = s ∨
    (∃ a, s.heap a = none ∧ s' = { s with
      heap := Function.update s.heap a (some .fresh)
      bus := Function.update s.bus i (some (some a))
      uses := Function.update s.uses i [] }) ∨
    (∃ a, s.heap a = none ∧ s' = { s with
      heap := Function.update s.heap a (some .fresh)
      leaked := a :: s.leaked }) := by
  unfold State.probe at h
  split at h
  · cases h
    exact .inl rfl
  · next a _ =>
    split at h
    · cases h
    next hfree =>
    have hnone : s.heap a = none := by simpa using hfree
    split at h <;> cases h
    · exact .inr (.inl ⟨a, hnone, rfl⟩)
    · exact .inr (.inr ⟨a, hnone, rfl⟩)

/-- The same devices are on the bus. -/
def SameBus (s s' : State F T) : Prop := ∀ j, s'.bus j ≠ none ↔ s.bus j ≠ none

/-- Giving driver data to a device on the bus, or taking it, keeps it there. -/
theorem update_onBus {bus : Nat → Option (Option Nat)} {x : Option Nat} (hi : bus i ≠ none)
    (j : Nat) : Function.update bus i (some x) j ≠ none ↔ bus j ≠ none := by
  rcases eq_or_ne j i with rfl | hne
  · rw [Function.update_self]
    exact iff_of_true (Option.some_ne_none _) hi
  · rw [Function.update_of_ne hne]

theorem probe_sameBus (hi : s.bus i ≠ none) (h : s.probe i env = some s') :
    SameBus s s' ∧ s'.devices = s.devices := by
  rcases probe_cases h with rfl | ⟨a, -, rfl⟩ | ⟨a, -, rfl⟩
  · exact ⟨fun _ => Iff.rfl, rfl⟩
  · exact ⟨update_onBus hi, rfl⟩
  · exact ⟨fun _ => Iff.rfl, rfl⟩

theorem attach_sameBus (h : s.attach i env = some s') :
    SameBus s s' ∧ s'.devices = s.devices := by
  unfold State.attach at h
  split at h
  · next hbus => exact probe_sameBus (by rw [hbus]; exact Option.some_ne_none _) h
  · cases h
    exact ⟨fun _ => Iff.rfl, rfl⟩

theorem remove_sameBus (s : State F T) (i : Nat) :
    SameBus s (s.remove i) ∧ (s.remove i).devices = s.devices := by
  unfold State.remove
  split
  · next a hbus => exact ⟨update_onBus (by rw [hbus]; exact Option.some_ne_none _), rfl⟩
  · exact ⟨fun _ => Iff.rfl, rfl⟩

/-- What a step can do to the devices on the bus. -/
inductive Registers (s s' : State F T) : Prop
  | still (hphase : s'.devices = s.devices) (hbus : SameBus s s')
  | start (hphase : s.devices = .out) (hnext : s'.devices = .coming 0) (hbus : SameBus s s')
  | fail {i : Nat} (hphase : s.devices = .coming i) (hnext : s'.devices = .out)
      (hbus : SameBus s s')
  | add {i : Nat} (hphase : s.devices = .coming i) (hnew : s.bus i = none)
      (hnext : s'.devices = Phase.next .coming .live i)
      (hbus : ∀ j, s'.bus j ≠ none ↔ j = i ∨ s.bus j ≠ none)
  | stop (hphase : s.devices = .live) (hnext : s'.devices = .going 0) (hbus : SameBus s s')
  | drop {i : Nat} (hphase : s.devices = .going i) (hnext : s'.devices = Phase.next .going .out i)
      (hbus : ∀ j, s'.bus j ≠ none ↔ j ≠ i ∧ s.bus j ≠ none)

theorem addDevice_registers {alloc : Bool} {add : Option Errno} (hphase : s.devices = .coming i)
    (h : s.addDevice i alloc add env = some s') : Registers s s' := by
  unfold State.addDevice at h
  split at h
  · next hnew =>
    have hadded : ∀ j, Function.update s.bus i (some none) j ≠ none ↔ j = i ∨ s.bus j ≠ none := by
      intro j
      rcases eq_or_ne j i with rfl | hne
      · rw [Function.update_self]
        exact iff_of_true (Option.some_ne_none _) (.inl rfl)
      · rw [Function.update_of_ne hne]
        exact (or_iff_right hne).symm
    dsimp only at h
    split at h
    · obtain ⟨hbus, hnext⟩ := probe_sameBus ((hadded i).mpr (.inl rfl)) h
      exact .add hphase hnew hnext fun j => (hbus j).trans (hadded j)
    · cases h
      exact .add hphase hnew rfl hadded
  · cases h
    exact .fail hphase rfl fun _ => Iff.rfl

theorem step_registers [DecidableEq F] [DecidableEq T] {a : Action F T}
    (h : step s a = some s') : Registers s s' := by
  cases a with
  | insmodDevices =>
    simp only [step] at h
    split at h
    · next hphase =>
      cases h
      exact .start hphase rfl fun _ => Iff.rfl
    · cases h
  | addDevice alloc add env =>
    simp only [step] at h
    split at h
    · next hphase => exact addDevice_registers hphase h
    · cases h
  | rmmodDevices =>
    simp only [step] at h
    split at h
    · next hphase =>
      cases h
      exact .stop hphase rfl fun _ => Iff.rfl
    · cases h
  | unregisterDevice =>
    simp only [step] at h
    split at h
    · next i hphase =>
      cases h
      refine .drop hphase rfl fun j => ?_
      show Function.update (s.remove i).bus i none j ≠ none ↔ _
      rcases eq_or_ne j i with rfl | hne
      · rw [Function.update_self]
        exact iff_of_false (fun hne => hne rfl) fun hne => hne.1 rfl
      · rw [Function.update_of_ne hne]
        exact ((remove_sameBus s i).1 j).trans (and_iff_right hne).symm
    · cases h
  | insmodDriver | rmmodDriver =>
    simp only [step] at h
    split at h <;> cases h
    exact .still rfl fun _ => Iff.rfl
  | attach env =>
    simp only [step] at h
    split at h
    · obtain ⟨hbus, hphase⟩ := attach_sameBus h
      exact .still hphase hbus
    · cases h
  | detach =>
    simp only [step] at h
    split at h
    · next i _ =>
      cases h
      exact .still (remove_sameBus s i).2 (remove_sameBus s i).1
    · cases h
  | bind i env =>
    simp only [step] at h
    split at h
    · obtain ⟨hbus, hphase⟩ := attach_sameBus h
      exact .still hphase hbus
    · cases h
  | unbind i =>
    simp only [step] at h
    split at h <;> cases h
    exact .still (remove_sameBus s i).2 (remove_sameBus s i).1
  | openNode f node =>
    simp only [step] at h
    split at h
    · split at h <;> cases h
      exact .still rfl fun _ => Iff.rfl
    · cases h
  | use f u =>
    simp only [step] at h
    split at h
    · cases h
    · split at h
      · split at h
        · cases h
          exact .still rfl fun _ => Iff.rfl
        · obtain ⟨d', -, rfl⟩ := Option.map_eq_some_iff.mp h
          exact .still rfl fun _ => Iff.rfl
      · cases h
  | close f =>
    simp only [step] at h
    split at h
    · cases h
    · split at h <;> cases h
      exact .still rfl fun _ => Iff.rfl

/-- The devices on the bus at each point of the two loops: the first few after a failure, and all
that were added or are still to be dropped. -/
def Shape (onBus : Nat → Prop) : Phase → Prop
  | .out | .coming 0 => ∃ k < deviceNum, ∀ i, onBus i ↔ i < k
  | .coming (n + 1) => n + 1 < deviceNum ∧ ∀ i, onBus i ↔ i < n + 1
  | .live => ∀ i, onBus i ↔ i < deviceNum
  | .going n => n < deviceNum ∧ ∀ i, onBus i ↔ n ≤ i ∧ i < deviceNum

/-- A platform device is on the bus. -/
def State.OnBus (s : State F T) (i : Nat) : Prop := s.bus i ≠ none

/-- A device can be added only where the loop has added all before it. -/
theorem Shape.coming {onBus : Nat → Prop} (h : Shape onBus (.coming i)) (hnew : ¬ onBus i) :
    i < deviceNum ∧ ∀ j, onBus j ↔ j < i := by
  cases i with
  | zero =>
    obtain ⟨k, -, hk⟩ := h
    have hzero : k = 0 := by
      rw [hk] at hnew
      omega
    subst hzero
    exact ⟨by decide, hk⟩
  | succ n => exact h

theorem Shape.step (h : Shape s.OnBus s.devices) (hreg : Registers s s') :
    Shape s'.OnBus s'.devices := by
  have hsame : SameBus s s' → s'.OnBus = s.OnBus := fun hbus => funext fun j => propext (hbus j)
  cases hreg with
  | still hphase hbus =>
    rw [hphase, hsame hbus]
    exact h
  | start hphase hnext hbus =>
    rw [hnext, hsame hbus]
    rw [hphase] at h
    exact h
  | @fail i hphase hnext hbus =>
    rw [hnext, hsame hbus]
    rw [hphase] at h
    cases i with
    | zero => exact h
    | succ n => exact ⟨n + 1, h.1, h.2⟩
  | @add i hphase hnew hnext hbus =>
    rw [hphase] at h
    obtain ⟨hi, hbefore⟩ := h.coming fun hon => hon hnew
    have hafter : ∀ j, s'.OnBus j ↔ j < i + 1 := fun j => by
      have hj := hbefore j
      unfold State.OnBus at hj ⊢
      rw [hbus, hj]
      omega
    rw [hnext, Phase.next]
    split
    · next hlast =>
      rw [hlast] at hafter
      exact hafter
    · next hmore => exact ⟨by omega, hafter⟩
  | stop hphase hnext hbus =>
    rw [hnext, hsame hbus]
    rw [hphase] at h
    exact ⟨by decide, fun i => (h i).trans (by omega)⟩
  | @drop i hphase hnext hbus =>
    rw [hphase] at h
    obtain ⟨hi, hbefore⟩ := h
    have hafter : ∀ j, s'.OnBus j ↔ i + 1 ≤ j ∧ j < deviceNum := fun j => by
      have hj := hbefore j
      unfold State.OnBus at hj ⊢
      rw [hbus, hj]
      omega
    rw [hnext, Phase.next]
    split
    · exact ⟨0, by decide, fun j => (hafter j).trans (by omega)⟩
    · exact ⟨by omega, hafter⟩

variable [DecidableEq F] [DecidableEq T]

theorem reach_shape {g : State F T → Action F T → Prop} (h : Reach step g .start s) :
    Shape s.OnBus s.devices := by
  refine h.invariant (I := fun s => Shape s.OnBus s.devices) ?_ fun h _ hstep =>
    h.step (step_registers hstep)
  exact ⟨0, by decide, fun i => iff_of_false (fun hon => hon rfl) (Nat.not_lt_zero i)⟩

/-- **A failed load.** While the module of the devices is not loaded, a first few of the devices
are on the bus, not all: those that a load has added before it failed. If there are any, no later
step takes one away or adds another, and the module is never loaded again. -/
theorem gfifo_devices_failed_load (h : Reach step anyStep .start s) (hout : s.devices = .out) :
    (∃ k < deviceNum, ∀ i, s.OnBus i ↔ i < k) ∧
    (s.OnBus 0 → ∀ s', Reach step anyStep s s' →
      s'.devices ≠ .live ∧ ∀ i, s'.OnBus i ↔ s.OnBus i) := by
  have hshape := reach_shape h
  rw [hout] at hshape
  refine ⟨hshape, fun hzero s' hreach => ?_⟩
  -- the loop is never past its first turn, which finds the name of the first device taken
  have hstuck : (s'.devices = .out ∨ s'.devices = .coming 0) ∧ ∀ i, s'.OnBus i ↔ s.OnBus i := by
    refine hreach.invariant
      (I := fun s' => (s'.devices = .out ∨ s'.devices = .coming 0) ∧ ∀ i, s'.OnBus i ↔ s.OnBus i)
      ⟨.inl hout, fun _ => Iff.rfl⟩ ?_
    rintro s₁ s₂ a ⟨hphase, hbus⟩ - hstep
    cases step_registers hstep with
    | still hnext hsame =>
      rw [hnext]
      exact ⟨hphase, fun i => (hsame i).trans (hbus i)⟩
    | start _ hnext hsame => exact ⟨.inr hnext, fun i => (hsame i).trans (hbus i)⟩
    | fail _ hnext hsame => exact ⟨.inl hnext, fun i => (hsame i).trans (hbus i)⟩
    | @add i hcoming hnew _ _ =>
      have hfirst : i = 0 := by
        rw [hcoming] at hphase
        simpa using hphase
      subst hfirst
      exact absurd hnew ((hbus 0).mpr hzero)
    | stop hlive _ _ =>
      rw [hlive] at hphase
      simp at hphase
    | drop hgoing _ _ =>
      rw [hgoing] at hphase
      simp at hphase
  refine ⟨fun hlive => ?_, hstuck.2⟩
  rw [hlive] at hstuck
  simp at hstuck

/-- There is no memory for the second of the sixteen devices. -/
def secondFails : List (Action Bool Bool) :=
  [.insmodDevices, .addDevice true none ⟨none, true⟩, .addDevice false none ⟨none, true⟩]

/-- `gfifo.0` is there, and every other load ends at it. -/
theorem gfifo_devices_failed_load_second :
    ∃ s : State Bool Bool, Reach step anyStep .start s ∧ s.OnBus 0 ∧ ¬ s.OnBus 1 ∧
      ∀ s', Reach step anyStep s s' → s'.devices ≠ .live ∧ s'.OnBus 0 ∧ ¬ s'.OnBus 1 := by
  obtain ⟨s, hrun, hout, hzero, hone⟩ : ∃ s, runFrom step .start secondFails = some s ∧
      s.devices = .out ∧ s.bus 0 = some none ∧ s.bus 1 = none := ⟨_, rfl, rfl, rfl, rfl⟩
  have hon : s.OnBus 0 := by
    unfold State.OnBus
    rw [hzero]
    exact Option.some_ne_none _
  have hoff : ¬ s.OnBus 1 := fun hon => hon hone
  have hreach := reach_runFrom hrun
  refine ⟨s, hreach, hon, hoff, fun s' hs' => ?_⟩
  obtain ⟨hlive, hbus⟩ := (gfifo_devices_failed_load hreach hout).2 hon s' hs'
  exact ⟨hlive, (hbus 0).mpr hon, fun hon' => hoff ((hbus 1).mp hon')⟩

end Bus

/-! ## The structures of the devices -/

section Memory

variable {T : Type} [DecidableEq T] {heap : Nat → Option (Fifo T)} {bus : Nat → Option (Option Nat)}
  {leaked : List Nat} {uses : Nat → List (Use T)} {i a : Nat}

/-- Every bound device has a structure of its own, in the state that the calls through its files
have brought about; the other structures are those that were leaked. -/
structure Books (heap : Nat → Option (Fifo T)) (bus : Nat → Option (Option Nat))
    (leaked : List Nat) (uses : Nat → List (Use T)) : Prop where
  held : ∀ {i a}, bus i = some (some a) →
    ∃ d, heap a = some d ∧ runFrom Use.run .fresh (uses i) = some d
  apart : ∀ {i j a}, bus i = some (some a) → bus j = some (some a) → i = j
  kept : ∀ {a}, a ∈ leaked → heap a ≠ none ∧ ∀ i, bus i ≠ some (some a)
  owned : ∀ {a}, heap a ≠ none → a ∈ leaked ∨ ∃ i, bus i = some (some a)

theorem Books.allocated (h : Books heap bus leaked uses) (hbus : bus i = some (some a)) :
    heap a ≠ none := by
  obtain ⟨d, hd, -⟩ := h.held hbus
  rw [hd]
  exact Option.some_ne_none _

/-- A device is probed and gets memory that nobody has. -/
theorem Books.bind (h : Books heap bus leaked uses) (hfree : heap a = none)
    (hi : bus i = some none) :
    Books (Function.update heap a (some .fresh)) (Function.update bus i (some (some a))) leaked
      (Function.update uses i []) := by
  have hother : ∀ {j b}, bus j = some (some b) → j ≠ i ∧ b ≠ a := by
    intro j b hj
    refine ⟨?_, fun hba => h.allocated hj (hba ▸ hfree)⟩
    rintro rfl
    rw [hi] at hj
    cases hj
  have hcases : ∀ {j b}, Function.update bus i (some (some a)) j = some (some b) →
      j = i ∧ b = a ∨ j ≠ i ∧ bus j = some (some b) := by
    intro j b hj
    rcases eq_or_ne j i with rfl | hne
    · rw [Function.update_self] at hj
      cases hj
      exact .inl ⟨rfl, rfl⟩
    · rw [Function.update_of_ne hne] at hj
      exact .inr ⟨hne, hj⟩
  constructor
  · intro j b hj
    rcases hcases hj with ⟨rfl, rfl⟩ | ⟨hne, hj⟩
    · rw [Function.update_self, Function.update_self]
      exact ⟨.fresh, rfl, rfl⟩
    · rw [Function.update_of_ne (hother hj).2, Function.update_of_ne hne]
      exact h.held hj
  · intro j k b hj hk
    rcases hcases hj with ⟨hji, hba⟩ | ⟨-, hbound⟩
    · rcases hcases hk with ⟨hki, -⟩ | ⟨-, hbound⟩
      · exact hji.trans hki.symm
      · exact absurd hba (hother hbound).2
    · rcases hcases hk with ⟨-, hba⟩ | ⟨-, hbound'⟩
      · exact absurd hba (hother hbound).2
      · exact h.apart hbound hbound'
  · intro b hb
    obtain ⟨halloc, hunbound⟩ := h.kept hb
    have hne : b ≠ a := fun hba => halloc (hba ▸ hfree)
    refine ⟨by rwa [Function.update_of_ne hne], fun j hj => ?_⟩
    rcases hcases hj with ⟨-, hba⟩ | ⟨-, hj⟩
    · exact hne hba
    · exact hunbound j hj
  · intro b hb
    rcases eq_or_ne b a with rfl | hne
    · exact .inr ⟨i, Function.update_self ..⟩
    · rw [Function.update_of_ne hne] at hb
      refine (h.owned hb).imp_right ?_
      rintro ⟨j, hj⟩
      exact ⟨j, by rwa [Function.update_of_ne (hother hj).1]⟩

/-- A probe that fails keeps its memory. -/
theorem Books.leak (h : Books heap bus leaked uses) (hfree : heap a = none) :
    Books (Function.update heap a (some .fresh)) bus (a :: leaked) uses := by
  have hother : ∀ {b}, heap b ≠ none → b ≠ a := fun hb hba => hb (hba ▸ hfree)
  constructor
  · intro j b hj
    rw [Function.update_of_ne (hother (h.allocated hj))]
    exact h.held hj
  · exact h.apart
  · intro b hb
    rcases List.mem_cons.mp hb with rfl | hb
    · rw [Function.update_self]
      exact ⟨Option.some_ne_none _, fun j hj => h.allocated hj hfree⟩
    · rw [Function.update_of_ne (hother (h.kept hb).1)]
      exact h.kept hb
  · intro b hb
    rcases eq_or_ne b a with rfl | hne
    · exact .inl List.mem_cons_self
    · rw [Function.update_of_ne hne] at hb
      exact (h.owned hb).imp_left (List.mem_cons_of_mem _)

/-- A device is removed and its memory freed. -/
theorem Books.free (h : Books heap bus leaked uses) (hi : bus i = some (some a)) :
    Books (Function.update heap a none) (Function.update bus i (some none)) leaked uses := by
  have hcases : ∀ {j b}, Function.update bus i (some none) j = some (some b) →
      bus j = some (some b) ∧ b ≠ a := by
    intro j b hj
    rcases eq_or_ne j i with rfl | hne
    · rw [Function.update_self] at hj
      cases hj
    · rw [Function.update_of_ne hne] at hj
      exact ⟨hj, fun hba => hne (h.apart hj (hba ▸ hi))⟩
  constructor
  · intro j b hj
    obtain ⟨hj, hne⟩ := hcases hj
    rw [Function.update_of_ne hne]
    exact h.held hj
  · exact fun hj hk => h.apart (hcases hj).1 (hcases hk).1
  · intro b hb
    obtain ⟨halloc, hunbound⟩ := h.kept hb
    have hne : b ≠ a := fun hba => hunbound i (hba ▸ hi)
    refine ⟨by rwa [Function.update_of_ne hne], fun j hj => hunbound j (hcases hj).1⟩
  · intro b hb
    rcases eq_or_ne b a with rfl | hne
    · exact absurd (Function.update_self ..) hb
    · rw [Function.update_of_ne hne] at hb
      refine (h.owned hb).imp_right ?_
      rintro ⟨j, hj⟩
      refine ⟨j, ?_⟩
      rwa [Function.update_of_ne]
      rintro rfl
      rw [hi] at hj
      cases hj
      exact hne rfl

/-- A device that is not bound comes onto the bus or goes. -/
theorem Books.register (h : Books heap bus leaked uses) (hi : ∀ a, bus i ≠ some (some a))
    {x : Option (Option Nat)} (hx : ∀ a, x ≠ some (some a)) :
    Books heap (Function.update bus i x) leaked uses := by
  have hiff : ∀ {j b}, Function.update bus i x j = some (some b) ↔ bus j = some (some b) := by
    intro j b
    rcases eq_or_ne j i with rfl | hne
    · rw [Function.update_self]
      exact iff_of_false (hx b) (hi b)
    · rw [Function.update_of_ne hne]
  refine ⟨fun hj => h.held (hiff.mp hj), fun hj hk => h.apart (hiff.mp hj) (hiff.mp hk),
    fun ha => ⟨(h.kept ha).1, fun j hj => (h.kept ha).2 j (hiff.mp hj)⟩, fun ha => ?_⟩
  refine (h.owned ha).imp_right ?_
  rintro ⟨j, hj⟩
  exact ⟨j, hiff.mpr hj⟩

/-- A call changes the structure of its device only. -/
theorem Books.use (h : Books heap bus leaked uses) (hi : bus i = some (some a)) {d d' : Fifo T}
    (hd : heap a = some d) {u : Use T} (hrun : u.run d = some d') :
    Books (Function.update heap a (some d')) bus leaked
      (Function.update uses i (uses i ++ [u])) := by
  have hsame : ∀ b, Function.update heap a (some d') b ≠ none ↔ heap b ≠ none := by
    intro b
    rcases eq_or_ne b a with rfl | hne
    · rw [Function.update_self]
      exact iff_of_true (Option.some_ne_none _) (h.allocated hi)
    · rw [Function.update_of_ne hne]
  constructor
  · intro j b hj
    rcases eq_or_ne j i with rfl | hne
    · rw [hi] at hj
      cases hj
      obtain ⟨d₀, hd₀, hpast⟩ := h.held hi
      rw [hd] at hd₀
      cases hd₀
      rw [Function.update_self, Function.update_self]
      exact ⟨d', rfl, runFrom_concat hpast hrun⟩
    · have hba : b ≠ a := fun hba => hne (h.apart hj (hba ▸ hi))
      rw [Function.update_of_ne hba, Function.update_of_ne hne]
      exact h.held hj
  · exact h.apart
  · exact fun hb => ⟨(hsame _).mpr (h.kept hb).1, (h.kept hb).2⟩
  · exact fun hb => h.owned ((hsame _).mp hb)

end Memory

/-! ## The open files -/

section Files

variable {F T : Type} [DecidableEq F] {files : F → Option (File T)} {refs : Nat} {f : F}
  {file : File T}

/-- The use count of the driver is the number of the open files. -/
def Counted (files : F → Option (File T)) (refs : Nat) : Prop :=
  ∃ opened : Finset F, opened.card = refs ∧ ∀ f, f ∈ opened ↔ files f ≠ none

theorem Counted.opened (h : Counted files refs) (hf : files f = none) (file : File T) :
    Counted (Function.update files f (some file)) (refs + 1) := by
  obtain ⟨opened, hcard, hmem⟩ := h
  have hnew : f ∉ opened := fun hin => (hmem f).mp hin hf
  refine ⟨insert f opened, by rw [Finset.card_insert_of_notMem hnew, hcard], fun f' => ?_⟩
  rw [Finset.mem_insert, hmem]
  rcases eq_or_ne f' f with rfl | hne
  · simp
  · simp [hne]

theorem Counted.closed (h : Counted files refs) (hf : files f = some file) :
    Counted (Function.update files f none) (refs - 1) := by
  obtain ⟨opened, hcard, hmem⟩ := h
  have hin : f ∈ opened := by
    rw [hmem, hf]
    exact Option.some_ne_none _
  refine ⟨opened.erase f, by rw [Finset.card_erase_of_mem hin, hcard], fun f' => ?_⟩
  rw [Finset.mem_erase, hmem]
  rcases eq_or_ne f' f with rfl | hne
  · simp
  · simp [hne]

theorem Counted.changed (h : Counted files refs) (hf : files f = some file) (file' : File T) :
    Counted (Function.update files f (some file')) refs := by
  obtain ⟨opened, hcard, hmem⟩ := h
  refine ⟨opened, hcard, fun f' => ?_⟩
  rw [hmem]
  rcases eq_or_ne f' f with rfl | hne
  · simp [hf]
  · simp [hne]

omit [DecidableEq F] in
theorem Counted.unused (h : Counted files 0) (f : F) : files f = none := by
  obtain ⟨opened, hcard, hmem⟩ := h
  by_contra hf
  exact Finset.notMem_empty f (Finset.card_eq_zero.mp hcard ▸ (hmem f).mpr hf)

end Files

/-! ## Runs in which devices go while they are idle -/

section Orderly

variable {F T : Type} {s s' : State F T} {i : Nat} {env : ProbeEnv}

/-- No file is open on the device. -/
def State.Idle (s : State F T) (i : Nat) : Prop :=
  ∀ f file, s.files f = some file → file.node ≠ i

/-- A device is unregistered or unbound only while it is idle. -/
def Orderly (s : State F T) : Action F T → Prop
  | .unregisterDevice => ∀ i, s.devices = .going i → s.Idle i
  | .unbind i => s.Idle i
  | _ => True

/-- The devices that an unloaded driver, or one being unloaded, cannot be bound to. -/
def Quiet (bus : Nat → Option (Option Nat)) : Phase → Prop
  | .out => ∀ i a, bus i ≠ some (some a)
  | .going k => ∀ i < k, ∀ a, bus i ≠ some (some a)
  | _ => True

theorem quiet_of_attached {bus : Nat → Option (Option Nat)} {p : Phase}
    (h : p.attached = true) : Quiet bus p := by
  cases p with
  | out | going => cases h
  | coming | live => trivial

theorem Quiet.mono {bus bus' : Nat → Option (Option Nat)} {p : Phase} (h : Quiet bus p)
    (hle : ∀ i a, bus' i = some (some a) → bus i = some (some a)) : Quiet bus' p := by
  cases p with
  | out => exact fun i a ha => h i a (hle i a ha)
  | going k => exact fun i hi a ha => h i hi a (hle i a ha)
  | coming | live => trivial

theorem Shape.inside {onBus : Nat → Prop} {p : Phase} (h : Shape onBus p) (hi : onBus i) :
    i < deviceNum := by
  match p, h with
  | .out, ⟨k, hk, hon⟩ => exact Nat.lt_trans ((hon i).mp hi) hk
  | .coming 0, ⟨k, hk, hon⟩ => exact Nat.lt_trans ((hon i).mp hi) hk
  | .coming (n + 1), ⟨hn, hon⟩ => exact Nat.lt_trans ((hon i).mp hi) hn
  | .live, hon => exact (hon i).mp hi
  | .going n, ⟨_, hon⟩ => exact ((hon i).mp hi).2

variable [DecidableEq T]

/-- What holds in an orderly run. -/
structure Sound (s : State F T) : Prop where
  clean : s.fault = false
  books : Books s.heap s.bus s.leaked s.uses
  opened : ∀ {f file}, s.files f = some file → s.bus file.node = some (some file.dev)
  counted : Counted s.files s.refs
  pinned : s.driver.attached = false → ∀ f, s.files f = none
  quiet : Quiet s.bus s.driver

theorem Sound.attachedPhase (h : Sound s) {p : Phase} (hp : p.attached = true) :
    Sound { s with driver := p } :=
  ⟨h.clean, h.books, h.opened, h.counted, fun hout => by simp [hp] at hout, quiet_of_attached hp⟩

theorem Sound.probe (h : Sound s) (hi : s.bus i = some none) (hdriver : s.driver.attached = true)
    (hprobe : s.probe i env = some s') : Sound s' := by
  have hpinned : s.driver.attached = false → ∀ f, s.files f = none := h.pinned
  rcases probe_cases hprobe with rfl | ⟨a, hfree, rfl⟩ | ⟨a, hfree, rfl⟩
  · exact h
  · refine ⟨h.clean, h.books.bind hfree hi, fun {f file} hf => ?_, h.counted, hpinned,
      quiet_of_attached hdriver⟩
    have hnode := h.opened hf
    show Function.update s.bus i (some (some a)) file.node = _
    rwa [Function.update_of_ne]
    rintro rfl
    rw [hi] at hnode
    cases hnode
  · exact ⟨h.clean, h.books.leak hfree, h.opened, h.counted, hpinned, h.quiet⟩

theorem Sound.attach (h : Sound s) (hdriver : s.driver.attached = true)
    (hattach : s.attach i env = some s') : Sound s' := by
  unfold State.attach at hattach
  split at hattach
  · next hi => exact h.probe hi hdriver hattach
  · cases hattach
    exact h

omit [DecidableEq T] in
/-- Removing a device binds none. -/
theorem remove_bound {j a : Nat} (hj : (s.remove i).bus j = some (some a)) :
    j ≠ i ∧ s.bus j = some (some a) := by
  unfold State.remove at hj
  split at hj
  · next b _ =>
    replace hj : Function.update s.bus i (some none) j = some (some a) := hj
    rcases eq_or_ne j i with rfl | hne
    · rw [Function.update_self] at hj
      cases hj
    · rw [Function.update_of_ne hne] at hj
      exact ⟨hne, hj⟩
  · next hunbound =>
    refine ⟨?_, hj⟩
    rintro rfl
    exact hunbound a hj

omit [DecidableEq T] in
theorem remove_files (s : State F T) (i : Nat) :
    (s.remove i).files = s.files ∧ (s.remove i).refs = s.refs ∧
      (s.remove i).driver = s.driver := by
  unfold State.remove
  split <;> exact ⟨rfl, rfl, rfl⟩

theorem Sound.remove (h : Sound s) (hidle : s.Idle i) : Sound (s.remove i) := by
  have hquiet : Quiet (s.remove i).bus (s.remove i).driver := by
    rw [(remove_files s i).2.2]
    exact h.quiet.mono fun j a hj => (remove_bound hj).2
  revert hquiet
  unfold State.remove
  split
  · next a hi =>
    intro hquiet
    refine ⟨?_, h.books.free hi, fun {f file} hf => ?_, h.counted, h.pinned, hquiet⟩
    · show (s.fault || (s.heap a).isNone) = false
      rw [h.clean, Bool.false_or, Option.isNone_eq_false_iff, Option.isSome_iff_ne_none]
      exact h.books.allocated hi
    · show Function.update s.bus i (some none) file.node = _
      rw [Function.update_of_ne (hidle f file hf)]
      exact h.opened hf
  · exact fun _ => h

/-- A device without driver data comes onto the bus. -/
theorem Sound.added (h : Sound s) (hi : s.bus i = none) (p : Phase) :
    Sound { s with bus := Function.update s.bus i (some none), devices := p } := by
  have hother : ∀ {j a}, s.bus j = some (some a) → j ≠ i := by
    rintro j a hj rfl
    rw [hi] at hj
    cases hj
  refine ⟨h.clean, h.books.register (fun a ha => ?_) (fun a ha => ?_), fun {f file} hf => ?_,
    h.counted, h.pinned, h.quiet.mono fun j a hj => ?_⟩
  · rw [hi] at ha
    cases ha
  · cases ha
  · show Function.update s.bus i (some none) file.node = _
    rw [Function.update_of_ne (hother (h.opened hf))]
    exact h.opened hf
  · replace hj : Function.update s.bus i (some none) j = some (some a) := hj
    rcases eq_or_ne j i with rfl | hne
    · rw [Function.update_self] at hj
      cases hj
    · rwa [Function.update_of_ne hne] at hj

theorem Sound.unregistered (h : Sound s) (hidle : s.Idle i) : Sound (s.unregisterDevice i) := by
  have hremove := h.remove hidle
  have hunbound : ∀ a, (s.remove i).bus i ≠ some (some a) := fun a ha => (remove_bound ha).1 rfl
  refine ⟨hremove.clean, hremove.books.register hunbound fun a ha => ?_, fun {f file} hf => ?_,
    hremove.counted, hremove.pinned, hremove.quiet.mono fun j a hj => ?_⟩
  · cases ha
  · have hnode : file.node ≠ i := hidle f file ((remove_files s i).1 ▸ hf)
    show Function.update (s.remove i).bus i none file.node = _
    rw [Function.update_of_ne hnode]
    exact hremove.opened hf
  · replace hj : Function.update (s.remove i).bus i none j = some (some a) := hj
    rcases eq_or_ne j i with rfl | hne
    · rw [Function.update_self] at hj
      cases hj
    · rwa [Function.update_of_ne hne] at hj

theorem File.settle_same (file : File T) (d : Fifo T) (u : Use T) :
    (file.settle d u).node = file.node ∧ (file.settle d u).dev = file.dev := by
  unfold File.settle
  split <;> exact ⟨rfl, rfl⟩

/-- A turn of the loop that takes the driver from its devices. -/
theorem Sound.detached (h : Sound s) (hdriver : s.driver = .going i)
    (hinside : ∀ j, s.OnBus j → j < deviceNum) :
    Sound { s.remove i with driver := Phase.next .going .out i } := by
  have hclosed : ∀ f, s.files f = none := h.pinned (by rw [hdriver]; rfl)
  have hremove : Sound (s.remove i) := h.remove fun f file hf => by
    rw [hclosed f] at hf
    cases hf
  have hquiet := h.quiet
  rw [hdriver] at hquiet
  have hbelow : ∀ j < i + 1, ∀ a, (s.remove i).bus j ≠ some (some a) := by
    intro j hj a ha
    obtain ⟨hne, ha⟩ := remove_bound ha
    exact hquiet j (by omega) a ha
  refine ⟨hremove.clean, hremove.books, hremove.opened, hremove.counted, fun _ f => ?_, ?_⟩
  · exact (congrFun (remove_files s i).1 f).trans (hclosed f)
  · unfold Phase.next
    split
    · next hlast =>
      intro j a ha
      refine hbelow j ?_ a ha
      rw [hlast]
      refine hinside j ?_
      unfold State.OnBus
      rw [(remove_bound ha).2]
      exact Option.some_ne_none _
    · exact hbelow

variable [DecidableEq F]

theorem Sound.use (h : Sound s) {f : F} {u : Use T} (hstep : step s (.use f u) = some s') :
    Sound s' := by
  simp only [step] at hstep
  split at hstep
  · cases hstep
  next file hf =>
  split at hstep
  · obtain ⟨d, hd, -⟩ := h.books.held (h.opened hf)
    rw [hd] at hstep
    obtain ⟨d', hrun, rfl⟩ := Option.map_eq_some_iff.mp hstep
    refine ⟨h.clean, h.books.use (h.opened hf) hd hrun, fun {f' file'} hf' => ?_,
      h.counted.changed hf _, fun hout => ?_, h.quiet⟩
    · replace hf' : Function.update s.files f (some (file.settle d' u)) f' = some file' := hf'
      rcases eq_or_ne f' f with rfl | hne
      · rw [Function.update_self] at hf'
        cases hf'
        obtain ⟨hnode, hdev⟩ := file.settle_same d' u
        show s.bus _ = _
        rw [hnode, hdev]
        exact h.opened hf
      · rw [Function.update_of_ne hne] at hf'
        exact h.opened hf'
    · have hnone := h.pinned hout f
      rw [hf] at hnone
      cases hnone
  · cases hstep

theorem Sound.close (h : Sound s) {f : F} (hstep : step s (.close f) = some s') : Sound s' := by
  simp only [step] at hstep
  split at hstep
  · cases hstep
  next file hf =>
  split at hstep
  · cases hstep
    have hothers : ∀ {f' file'}, Function.update s.files f none f' = some file' →
        s.files f' = some file' := by
      intro f' file' hf'
      rcases eq_or_ne f' f with rfl | hne
      · rw [Function.update_self] at hf'
        cases hf'
      · rwa [Function.update_of_ne hne] at hf'
    refine ⟨?_, h.books, fun hf' => h.opened (hothers hf'), h.counted.closed hf, fun hout f' => ?_,
      h.quiet⟩
    · show (s.fault || (s.heap file.dev).isNone) = false
      rw [h.clean, Bool.false_or, Option.isNone_eq_false_iff, Option.isSome_iff_ne_none]
      exact h.books.allocated (h.opened hf)
    · have hnone := h.pinned hout f
      rw [hf] at hnone
      cases hnone
  · cases hstep

theorem Sound.openNode (h : Sound s) {f : F} {node : Nat}
    (hstep : step s (.openNode f node) = some s') : Sound s' := by
  simp only [step] at hstep
  split at hstep
  · next a hf hnode =>
    split at hstep
    · next hdriver =>
      cases hstep
      refine ⟨h.clean, h.books, fun {f' file'} hf' => ?_, h.counted.opened hf _, fun hout => ?_,
        h.quiet⟩
      · replace hf' : Function.update s.files f (some ⟨node, a, []⟩) f' = some file' := hf'
        rcases eq_or_ne f' f with rfl | hne
        · rw [Function.update_self] at hf'
          cases hf'
          exact hnode
        · rw [Function.update_of_ne hne] at hf'
          exact h.opened hf'
      · exact absurd (hdriver.symm.trans hout) (by decide)
    · cases hstep
  · cases hstep

theorem Sound.step {a : Action F T} (h : Sound s) (hshape : Shape s.OnBus s.devices)
    (horderly : Orderly s a) (hstep : step s a = some s') : Sound s' := by
  cases a with
  | insmodDevices | rmmodDevices =>
    simp only [Devices.step] at hstep
    split at hstep <;> cases hstep
    exact ⟨h.clean, h.books, h.opened, h.counted, h.pinned, h.quiet⟩
  | addDevice alloc add env =>
    simp only [Devices.step] at hstep
    split at hstep
    · unfold State.addDevice at hstep
      split at hstep
      · next hnew =>
        have hadded := h.added hnew
        dsimp only at hstep
        split at hstep
        · next hdriver => exact (hadded _).probe (Function.update_self ..) hdriver hstep
        · cases hstep
          exact hadded _
      · cases hstep
        exact ⟨h.clean, h.books, h.opened, h.counted, h.pinned, h.quiet⟩
    · cases hstep
  | unregisterDevice =>
    simp only [Devices.step] at hstep
    split at hstep
    · next i hphase =>
      cases hstep
      exact h.unregistered (horderly i hphase)
    · cases hstep
  | insmodDriver =>
    simp only [Devices.step] at hstep
    split at hstep <;> cases hstep
    exact h.attachedPhase rfl
  | attach env =>
    simp only [Devices.step] at hstep
    split at hstep
    · next i _ =>
      have hnext : (Phase.next .coming .live i).attached = true := by
        unfold Phase.next
        split <;> rfl
      exact (h.attachedPhase hnext).attach hnext hstep
    · cases hstep
  | rmmodDriver =>
    simp only [Devices.step] at hstep
    split at hstep
    · next hunused =>
      cases hstep
      have hclosed := (hunused.2 ▸ h.counted).unused
      exact ⟨h.clean, h.books, h.opened, h.counted, fun _ => hclosed, fun i hi => by omega⟩
    · cases hstep
  | detach =>
    simp only [Devices.step] at hstep
    split at hstep
    · next hdriver =>
      cases hstep
      exact h.detached hdriver fun j hj => hshape.inside hj
    · cases hstep
  | bind i env =>
    simp only [Devices.step] at hstep
    split at hstep
    · next hdriver => exact h.attach hdriver hstep
    · cases hstep
  | unbind i =>
    simp only [Devices.step] at hstep
    split at hstep <;> cases hstep
    exact h.remove horderly
  | openNode f node => exact h.openNode hstep
  | use f u => exact h.use hstep
  | close f => exact h.close hstep

theorem reach_sound (h : Reach Devices.step Orderly .start s) : Sound s := by
  refine h.invariant_reached ?_ fun hreach h horderly hstep =>
    h.step (reach_shape hreach) horderly hstep
  refine ⟨rfl, ⟨fun hj => ?_, fun hj => ?_, fun ha => ?_, fun ha => absurd rfl ha⟩, fun hf => ?_,
    ⟨∅, rfl, fun f => iff_of_false (Finset.notMem_empty f) fun hf => hf rfl⟩, fun _ _ => rfl,
    fun i a ha => ?_⟩
  · cases hj
  · cases hj
  · cases ha
  · cases hf
  · cases ha

/-- Without `MEM_CLEAR`, the calls on a device are those of the FIFO contract. -/
theorem reach_of_uses {us : List (Use T)} (hclear : Use.ioctl memClearCmd ∉ us) :
    ∀ {d₀ d : Fifo T}, Reach (Gfifo.step gfifoSize) anyStep .fresh d₀ →
      runFrom Use.run d₀ us = some d → Reach (Gfifo.step gfifoSize) anyStep .fresh d := by
  induction us with
  | nil =>
    intro d₀ d hreach hrun
    cases hrun
    exact hreach
  | cons u us ih =>
    intro d₀ d hreach hrun
    obtain ⟨d₁, hu, hrest⟩ := Option.bind_eq_some_iff.mp hrun
    refine ih (fun hmem => hclear (List.mem_cons_of_mem u hmem)) ?_ hrest
    cases u with
    | stay e => exact hreach.tail trivial hu
    | ioctl cmd =>
      have hcmd : cmd ≠ memClearCmd := by
        rintro rfl
        exact hclear List.mem_cons_self
      simp only [Use.run, gfifoIoctl, if_neg hcmd] at hu
      cases hu
      exact hreach
    | poll =>
      cases hu
      exact hreach

/-- **Devices are apart.** When devices are unregistered and unbound only while they are idle, then
in every run: no call has met freed memory; every open file leads to the structure its device is
bound to; that structure belongs to no other device and is in the state that the calls through the
device's own files have brought about, a FIFO as long as none of them has cleared it; the other
structures are those that failed probes have left; and once the driver is unloaded no file is open
and no device bound. -/
theorem gfifo_devices_isolated (h : Reach Devices.step Orderly .start s) :
    s.fault = false ∧
    (∀ f file, s.files f = some file → s.bus file.node = some (some file.dev)) ∧
    (∀ i a, s.bus i = some (some a) →
      (∀ j, s.bus j = some (some a) → j = i) ∧
      ∃ d, s.heap a = some d ∧ runFrom Use.run .fresh (s.uses i) = some d ∧
        (.ioctl memClearCmd ∉ s.uses i →
          d.accepted = d.delivered ++ slice d.dev.mem 0 d.dev.curLen)) ∧
    (∀ a, s.heap a ≠ none ↔ a ∈ s.leaked ∨ ∃ i, s.bus i = some (some a)) ∧
    (s.driver = .out → (∀ f, s.files f = none) ∧ ∀ i a, s.bus i ≠ some (some a)) := by
  have hsound := reach_sound h
  refine ⟨hsound.clean, fun f file hf => hsound.opened hf, fun i a hi => ?_, fun a => ?_,
    fun hout => ?_⟩
  · obtain ⟨d, hd, hrun⟩ := hsound.books.held hi
    refine ⟨fun j hj => hsound.books.apart hj hi, d, hd, hrun, fun hclear => ?_⟩
    obtain ⟨l, hl⟩ := reach_represents (reach_of_uses hclear .init hrun)
    rw [hl.accepted, hl.delivered, hl.items]
    exact l.balanced
  · refine ⟨fun ha => hsound.books.owned ha, ?_⟩
    rintro (hleaked | ⟨i, hi⟩)
    · exact (hsound.books.kept hleaked).1
    · exact hsound.books.allocated hi
  · have hquiet := hsound.quiet
    have hpinned := hsound.pinned
    rw [hout] at hquiet hpinned
    exact ⟨hpinned rfl, hquiet⟩

end Orderly

/-- Both modules are loaded, the driver first. -/
def loadBoth : List (Action Bool Bool) :=
  [.insmodDriver, .insmodDevices] ++
    (List.range deviceNum).map fun i => .addDevice true none ⟨some (7 * i), true⟩

/-- Three bytes go to `gfifo0`, and nothing is found in `gfifo1`. -/
def writeZeroReadOne : List (Action Bool Bool) :=
  loadBoth ++
    [.openNode false 0, .openNode true 1,
      .use false (.stay (.enter false (.write (fun i => UInt8.ofNat (10 + i)) threeBytes))),
      .use true (.stay (.enter true (.read threeBytes)))]

/-- No device goes. -/
def keepsDevices : Action Bool Bool → Bool
  | .unregisterDevice | .unbind _ => false
  | _ => true

theorem orderly_of_keepsDevices (s : State Bool Bool) (a : Action Bool Bool)
    (h : keepsDevices a = true) : Orderly s a := by
  cases a with
  | unregisterDevice | unbind => cases h
  | _ => trivial

theorem gfifo_devices_isolated_two :
    ∃ s : State Bool Bool, Reach step Orderly .start s ∧ s.fault = false ∧
      ∃ d, s.heap 0 = some d ∧ d.accepted = [10, 11, 12] ∧
        d.accepted = d.delivered ++ slice d.dev.mem 0 d.dev.curLen := by
  obtain ⟨s, hrun, hbus, huses, d, hd, haccepted⟩ : ∃ s,
      runFrom (checked step fun _ => keepsDevices) .start writeZeroReadOne = some s ∧
      s.bus 0 = some (some 0) ∧ (∃ u, s.uses 0 = [.stay u]) ∧
      ∃ d, s.heap 0 = some d ∧ d.accepted = [10, 11, 12] :=
    ⟨_, rfl, rfl, ⟨_, rfl⟩, _, rfl, by decide⟩
  have hreach := reach_checked orderly_of_keepsDevices hrun
  obtain ⟨hclean, -, hheld, -⟩ := gfifo_devices_isolated hreach
  obtain ⟨-, d', hd', -, hfifo⟩ := hheld 0 0 hbus
  obtain rfl : d = d' := Option.some.inj (hd.symm.trans hd')
  obtain ⟨u, hu⟩ := huses
  exact ⟨s, hreach, hclean, d, hd, haccepted, hfifo (by simp [hu])⟩

/-- The devices are unloaded under an open file, and the file is closed. -/
def unloadUnderFile : List (Action Bool Bool) :=
  loadBoth ++ [.openNode false 0, .rmmodDevices] ++ List.replicate deviceNum .unregisterDevice ++
    [.close false]

/-- Nothing keeps the module of the devices from being unloaded while a file is open: closing the
file then reads memory that was freed. -/
theorem unloaded_under_file :
    ∃ s : State Bool Bool, Reach step anyStep .start s ∧ s.fault = true := by
  obtain ⟨s, hrun, hfault⟩ : ∃ s, runFrom step .start unloadUnderFile = some s ∧
      s.fault = true := ⟨_, rfl, rfl⟩
  exact ⟨s, reach_runFrom hrun, hfault⟩

end LinuxDeviceDriver.Gfifo.Devices
