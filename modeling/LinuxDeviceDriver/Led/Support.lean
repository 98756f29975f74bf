import LinuxDeviceDriver.Generic.Masked

/-!
# LEDs behind register bits: `led_support.c`

A LED is one bit of an 8-bit register; `active_low` says that the LED is on when the bit is
0. While a LED is disabled its registers are not accessed.

The module has the data of a LED, the two functions that read and set it, and the loops that
enable and disable the LEDs of an array. `get_run` and `set_content` are what reading and
setting come to on registers that behave as memory.
-/

namespace LinuxDeviceDriver.Led

open Lib Generic

/-! ## Data -/

/-- `enum led_brightness` -/
abbrev Brightness := BitVec 32

/-- `LED_OFF` -/
def ledOff : Brightness := 0

/-- `LED_FULL` -/
def ledFull : Brightness := 255

/-- `struct dev_led`, as far as it is about registers. -/
structure DevLed where
  regBase : Iomem
  regOffset : BitVec 8
  regMask : BitVec 8
  enbRegOffset : BitVec 8
  enbRegMask : BitVec 8
  enbRegValue : BitVec 8
  enbCtrl : BitVec 8
  activeLow : Bool
  disabled : Bool

/-- `led->reg_base + led->reg_offset` -/
def DevLed.addr (led : DevLed) : Iomem := led.regBase + led.regOffset.toNat

/-! ## Registers -/

/-- `dev_read` -/
def devRead (addr : Iomem) : RegProg (BitVec 8) := gaRegRead8 addr 0xff

/-- `dev_read_modify_write` -/
def devReadModifyWrite (addr : Iomem) (mask upd : BitVec 8) : RegProg Unit := do
  let _ ← gaRegWrite8 addr mask upd gaReadWriteAlways
  return ()

/-- `reg` in `_dev_leds_brightness_get`. -/
def DevLed.reg (led : DevLed) : RegProg (BitVec 8) :=
  if led.disabled then return 0
  else do
    let reg ← devRead led.addr
    return reg &&& led.regMask

/-- `_dev_leds_brightness_get` -/
def _devLedsBrightnessGet (led : DevLed) : RegProg Brightness := do
  let reg ← led.reg
  return if (reg ≠ 0 ∧ led.activeLow) ∨ (reg = 0 ∧ !led.activeLow) then ledOff else ledFull

/-- `_dev_leds_brightness_set` -/
def _devLedsBrightnessSet (led : DevLed) (ledValue : Brightness) : RegProg Unit :=
  if led.disabled then return ()
  else if (ledValue ≠ 0 ∧ led.activeLow) ∨ (ledValue = 0 ∧ !led.activeLow) then
    devReadModifyWrite led.addr led.regMask 0
  else devReadModifyWrite led.addr led.regMask led.regMask

/-- `dev_leds_enb_reg_set` -/
def devLedsEnbRegSet (led : DevLed) : RegProg Unit :=
  if !led.disabled ∧ led.enbCtrl ≠ 0 then
    devReadModifyWrite (led.regBase + led.enbRegOffset.toNat) led.enbRegMask led.enbRegValue
  else return ()

/-! ## Arrays of LEDs -/

/-- An array of LEDs, from some address on. -/
abbrev Leds := Nat → DevLed

/-- The loop of `dev_leds_enable` and `dev_leds_disable`. -/
def setDisabled (disabled : Bool) (leds : Leds) (first : Nat) : Nat → Leds
  | 0 => leds
  | i + 1 =>
    let leds := setDisabled disabled leds first i
    Function.update leds (first + i) { leds (first + i) with disabled := disabled }

/-- `dev_leds_enable(pdev, &leds[first], num_dev_leds)` -/
def devLedsEnable : Leds → Nat → Nat → Leds := setDisabled false

/-- `dev_leds_disable(pdev, &leds[first], num_dev_leds)` -/
def devLedsDisable : Leds → Nat → Nat → Leds := setDisabled true

/-- The loop changes the flags in its range, and nothing else. -/
theorem setDisabled_apply (disabled : Bool) (leds : Leds) (first num i : Nat) :
    setDisabled disabled leds first num i =
      if first ≤ i ∧ i < first + num then { leds i with disabled := disabled } else leds i := by
  induction num with
  | zero => exact (if_neg (by omega)).symm
  | succ num ih =>
    unfold setDisabled
    dsimp only
    by_cases hi : i = first + num
    · subst hi
      rw [Function.update_self, ih, if_neg (by omega), if_pos (by omega)]
    · rw [Function.update_of_ne hi, ih]
      by_cases hin : first ≤ i ∧ i < first + num
      · rw [if_pos hin, if_pos (by omega)]
      · rw [if_neg hin, if_neg (by omega)]

/-! ## Registers that behave as memory -/

/-- Every register is memory of its own. -/
structure MemoryLike {σ : Type} (exec : (c : RegCmd) → σ → c.Answer × σ)
    (content : Iomem → σ → BitVec 8) : Prop where
  memory : ∀ addr, RegMemory exec .w8 addr (content addr)
  apart : ∀ addr addr', addr ≠ addr' → Keeps exec .w8 addr (content addr')

/-- The bit that makes a LED show a value. -/
def DevLed.level (led : DevLed) (ledValue : Brightness) : Bool :=
  (decide (ledValue ≠ 0)) != led.activeLow

section Memory

variable {σ : Type} {exec : (c : RegCmd) → σ → c.Answer × σ} {content : Iomem → σ → BitVec 8}
variable {led : DevLed}

theorem devReadModifyWrite_content (hmem : MemoryLike exec content) (addr addr' : Iomem)
    (mask upd : BitVec 8) (s : σ) :
    content addr' ((devReadModifyWrite addr mask upd).run exec s).2 =
      if addr' = addr then merge (content addr s) mask upd else content addr' s := by
  have hoptions : ReadModifyWrite gaReadWriteAlways := ⟨by unfold ReadsFirst; decide, by decide⟩
  unfold devReadModifyWrite
  rw [Prog.run_bind]
  split
  · next hsame =>
    subst hsame
    exact gaRegWriteN_content (hmem.memory addr') hoptions mask upd s
  · next hne =>
    exact gaDefineRegWrite_keeps (hmem.apart addr addr' (Ne.symm hne)) 0xff mask upd _ s

/-- Setting an enabled LED writes its level to all bits of its mask. -/
theorem set_content (hmem : MemoryLike exec content) (hon : led.disabled = false)
    (ledValue : Brightness) (addr : Iomem) (s : σ) :
    content addr ((_devLedsBrightnessSet led ledValue).run exec s).2 =
      if addr = led.addr then
        merge (content addr s) led.regMask (if led.level ledValue then led.regMask else 0)
      else content addr s := by
  have hlevel : ((ledValue ≠ 0 ∧ led.activeLow) ∨ (ledValue = 0 ∧ !led.activeLow)) ↔
      led.level ledValue = false := by
    unfold DevLed.level
    by_cases hvalue : ledValue = 0 <;> cases led.activeLow <;> simp [hvalue]
  unfold _devLedsBrightnessSet
  rw [hon, if_neg Bool.false_ne_true]
  by_cases hoff : (ledValue ≠ 0 ∧ led.activeLow) ∨ (ledValue = 0 ∧ !led.activeLow)
  · rw [if_pos hoff, devReadModifyWrite_content hmem, hlevel.mp hoff]
    split
    · next hsame => rw [hsame]; rfl
    · rfl
  · have hlit : led.level ledValue = true := by
      cases hcase : led.level ledValue with
      | true => rfl
      | false => exact absurd (hlevel.mpr hcase) hoff
    rw [if_neg hoff, devReadModifyWrite_content hmem, hlit]
    split
    · next hsame => rw [hsame]; rfl
    · rfl

/-- Reading an enabled LED tells whether a bit of its mask is set. -/
theorem get_run (hmem : MemoryLike exec content) (hon : led.disabled = false) (s : σ) :
    ((_devLedsBrightnessGet led).run exec s).1 =
      if (decide (content led.addr s &&& led.regMask ≠ 0)) != led.activeLow then ledFull
      else ledOff := by
  have hread : ((devRead led.addr).run exec s).1 = content led.addr s := by
    refine (gaDefineRegRead_run (hmem.memory led.addr) 0xff s).trans ?_
    exact BitVec.and_allOnes
  have hreg : (led.reg.run exec s).1 = content led.addr s &&& led.regMask := by
    unfold DevLed.reg
    rw [hon, if_neg Bool.false_ne_true, Prog.run_bind, hread]
    rfl
  unfold _devLedsBrightnessGet
  rw [Prog.run_bind, hreg]
  show (if _ then ledOff else ledFull) = _
  by_cases hzero : content led.addr s &&& led.regMask = 0 <;> cases led.activeLow <;> simp [hzero]

end Memory

end LinuxDeviceDriver.Led
