import LinuxDeviceDriver.Led.Support

/-!
# What a set of LEDs shows

`Panel` says what a set of LEDs is for: each shows what it was last told while it was enabled.
`Bank` is the array of the driver with its registers. `Refines` relates the two when every LED
has a bit of its own (`SingleBits`): the bit of a LED is at the level of its last value, and
the bits of no LED are as they were.

- `refines_set`, `refines_switch`: one call.
- `refines_run`: any sequence of calls.
- `leds_show_last_set`: read back through `_dev_leds_brightness_get`.
-/

namespace LinuxDeviceDriver.Led

open Lib Generic

/-! ## The two levels -/

/-- Calls on an array of `n` LEDs. -/
inductive Op (n : Nat)
  | set (i : Fin n) (ledValue : Brightness)
  | enable (first num : Nat)
  | disable (first num : Nat)

/-- Which LEDs are enabled, and what each was last told while it was. -/
structure Panel where
  enabled : Nat → Bool
  last : Nat → Option Brightness

def Panel.initial (leds : Leds) : Panel := ⟨fun i => !(leds i).disabled, fun _ => none⟩

/-- Switch a range of LEDs. -/
def Panel.switch (p : Panel) (on : Bool) (first num : Nat) : Panel :=
  { p with enabled := fun i => if first ≤ i ∧ i < first + num then on else p.enabled i }

def Panel.apply {n : Nat} (p : Panel) : Op n → Panel
  | .set i ledValue =>
    if p.enabled i then { p with last := Function.update p.last i (some ledValue) } else p
  | .enable first num => p.switch true first num
  | .disable first num => p.switch false first num

/-- The array and the registers. -/
structure Bank (σ : Type) where
  leds : Leds
  regs : σ

def Bank.apply {σ : Type} (exec : (c : RegCmd) → σ → c.Answer × σ) {n : Nat} (b : Bank σ) :
    Op n → Bank σ
  | .set i ledValue =>
    { b with regs := ((_devLedsBrightnessSet (b.leds i) ledValue).run exec b.regs).2 }
  | .enable first num => { b with leds := devLedsEnable b.leds first num }
  | .disable first num => { b with leds := devLedsDisable b.leds first num }

/-! ## Bits of their own -/

/-- The LEDs of one device, each with a single bit, no two with the same one. -/
structure SingleBits (n : Nat) (leds : Leds) : Prop where
  base : ∀ i j, i < n → j < n → (leds i).regBase = (leds j).regBase
  single : ∀ i, i < n → ∃ k, k < 8 ∧ (leds i).regMask = BitVec.twoPow 8 k
  distinct : ∀ i j, i < n → j < n → (leds i).regOffset = (leds j).regOffset →
    (leds i).regMask = (leds j).regMask → i = j

/-- The bit belongs to a LED. -/
def Owned (n : Nat) (leds : Leds) (addr : Iomem) (k : Nat) : Prop :=
  ∃ i, i < n ∧ (leds i).addr = addr ∧ (leds i).regMask.getLsbD k = true

theorem getLsbD_single {k k' : Nat} (hk : k < 8) :
    (BitVec.twoPow 8 k).getLsbD k' = decide (k = k') := by
  rw [BitVec.getLsbD_twoPow, decide_eq_true hk, Bool.true_and]

/-- Two LEDs of one register do not share a bit. -/
theorem SingleBits.disjoint {n : Nat} {leds : Leds} (h : SingleBits n leds) {i j : Nat}
    (hi : i < n) (hj : j < n) (hne : i ≠ j) (haddr : (leds i).addr = (leds j).addr) {k : Nat}
    (hk : (leds j).regMask.getLsbD k = true) : (leds i).regMask.getLsbD k = false := by
  obtain ⟨ki, hki, hmaski⟩ := h.single i hi
  obtain ⟨kj, hkj, hmaskj⟩ := h.single j hj
  have hoffset : (leds i).regOffset = (leds j).regOffset := by
    rw [DevLed.addr, DevLed.addr, h.base i j hi hj] at haddr
    exact BitVec.eq_of_toNat_eq (Nat.add_left_cancel haddr)
  rw [hmaskj, getLsbD_single hkj, decide_eq_true_eq] at hk
  rw [hmaski, getLsbD_single hki]
  refine decide_eq_false fun hsame => hne (h.distinct i j hi hj hoffset ?_)
  rw [hmaski, hmaskj, hsame, hk]

/-! ## Refinement -/

section Refinement

variable {σ : Type} {exec : (c : RegCmd) → σ → c.Answer × σ} {content : Iomem → σ → BitVec 8}
variable {n : Nat} {leds : Leds} {regs : σ} {b : Bank σ} {p : Panel}

/-- The array and its registers show the panel, from the array `leds` and the registers `regs`
on. -/
structure Refines (content : Iomem → σ → BitVec 8) (n : Nat) (leds : Leds) (regs : σ)
    (b : Bank σ) (p : Panel) : Prop where
  flags : ∀ i, b.leds i = { leds i with disabled := !p.enabled i }
  shows : ∀ i, i < n → ∀ v, p.last i = some v → ∀ k, (leds i).regMask.getLsbD k = true →
    (content (leds i).addr b.regs).getLsbD k = (leds i).level v
  rest : ∀ addr k, ¬ Owned n leds addr k →
    (content addr b.regs).getLsbD k = (content addr regs).getLsbD k

theorem refines_initial (content : Iomem → σ → BitVec 8) (n : Nat) (leds : Leds) (regs : σ) :
    Refines content n leds regs ⟨leds, regs⟩ (Panel.initial leds) where
  flags i := by
    show leds i = { leds i with disabled := !!(leds i).disabled }
    rw [Bool.not_not]
  shows := nofun
  rest _ _ _ := rfl

theorem refines_switch (h : Refines content n leds regs b p) (on : Bool) (first num : Nat) :
    Refines content n leds regs { b with leds := setDisabled (!on) b.leds first num }
      (p.switch on first num) where
  flags i := by
    refine (setDisabled_apply (!on) b.leds first num i).trans ?_
    have henabled : (p.switch on first num).enabled i =
        if first ≤ i ∧ i < first + num then on else p.enabled i := rfl
    rw [h.flags, henabled]
    by_cases hin : first ≤ i ∧ i < first + num
    · rw [if_pos hin, if_pos hin]
    · rw [if_neg hin, if_neg hin]
  shows := h.shows
  rest := h.rest

/-- Setting an enabled LED changes its bit and no other. -/
theorem set_bit (hmem : MemoryLike exec content) {led : DevLed} (hon : led.disabled = false)
    (ledValue : Brightness) (addr : Iomem) (k : Nat) (s : σ) :
    (content addr ((_devLedsBrightnessSet led ledValue).run exec s).2).getLsbD k =
      if addr = led.addr ∧ led.regMask.getLsbD k = true then led.level ledValue
      else (content addr s).getLsbD k := by
  rw [set_content hmem hon]
  by_cases haddr : addr = led.addr
  · rw [if_pos haddr, getLsbD_merge]
    by_cases hk : led.regMask.getLsbD k = true
    · rw [if_pos hk, if_pos (And.intro haddr hk)]
      cases led.level ledValue with
      | true => exact hk
      | false => exact BitVec.getLsbD_zero
    · rw [if_neg hk, if_neg fun hboth => hk hboth.2]
  · rw [if_neg haddr, if_neg fun hboth => haddr hboth.1]

/-- A disabled LED is left alone, on both levels. -/
theorem refines_set_disabled (h : Refines content n leds regs b p) {i : Fin n}
    (hoff : p.enabled i = false) (ledValue : Brightness) :
    Refines content n leds regs (b.apply exec (.set i ledValue)) (p.apply (.set i ledValue)) := by
  have hbank : b.apply exec (.set i ledValue) = b := by
    show { b with regs := ((_devLedsBrightnessSet (b.leds i) ledValue).run exec b.regs).2 } = b
    rw [h.flags, hoff]
    rfl
  have hpanel : p.apply (.set i ledValue) = p := by
    show (if p.enabled i then _ else p) = p
    rw [hoff]
    rfl
  rw [hbank, hpanel]
  exact h

theorem refines_set_enabled (hmem : MemoryLike exec content) (hbits : SingleBits n leds)
    (h : Refines content n leds regs b p) {i : Fin n} (hon : p.enabled i = true)
    (ledValue : Brightness) :
    Refines content n leds regs (b.apply exec (.set i ledValue)) (p.apply (.set i ledValue)) := by
  have hpanel : p.apply (.set i ledValue) =
      { p with last := Function.update p.last i (some ledValue) } := by
    show (if p.enabled i then _ else p) = _
    rw [hon]
    rfl
  have hbit : ∀ addr k, (content addr (b.apply exec (.set i ledValue)).regs).getLsbD k =
      if addr = (leds i).addr ∧ (leds i).regMask.getLsbD k = true then (leds i).level ledValue
      else (content addr b.regs).getLsbD k := by
    intro addr k
    have hdisabled : (b.leds i).disabled = false := by rw [h.flags, hon]; rfl
    refine (set_bit hmem hdisabled ledValue addr k b.regs).trans ?_
    rw [h.flags]
    rfl
  rw [hpanel]
  refine ⟨h.flags, ?_, ?_⟩
  · intro j hj v hlast k hk
    change Function.update p.last i (some ledValue) j = some v at hlast
    rw [hbit]
    by_cases hji : j = i
    · subst hji
      rw [Function.update_self] at hlast
      cases hlast
      exact if_pos ⟨rfl, hk⟩
    · rw [Function.update_of_ne hji] at hlast
      -- the bit of another LED is not in the mask
      rw [if_neg, h.shows j hj v hlast k hk]
      rintro ⟨haddr, hki⟩
      have hfree := hbits.disjoint i.isLt hj (Ne.symm hji) haddr.symm hk
      exact Bool.false_ne_true (hfree.symm.trans hki)
  · intro addr k hfree
    rw [hbit, if_neg, h.rest addr k hfree]
    rintro ⟨haddr, hk⟩
    exact hfree ⟨i, i.isLt, haddr.symm, hk⟩

theorem refines_set (hmem : MemoryLike exec content) (hbits : SingleBits n leds)
    (h : Refines content n leds regs b p) (i : Fin n) (ledValue : Brightness) :
    Refines content n leds regs (b.apply exec (.set i ledValue)) (p.apply (.set i ledValue)) := by
  cases hon : p.enabled i with
  | false => exact refines_set_disabled h hon ledValue
  | true => exact refines_set_enabled hmem hbits h hon ledValue

/-- Any sequence of calls. -/
theorem refines_run (hmem : MemoryLike exec content) (hbits : SingleBits n leds)
    (ops : List (Op n)) (h : Refines content n leds regs b p) :
    Refines content n leds regs (ops.foldl (Bank.apply exec) b) (ops.foldl Panel.apply p) := by
  induction ops generalizing b p with
  | nil => exact h
  | cons op ops ih =>
    refine ih ?_
    cases op with
    | set i ledValue => exact refines_set hmem hbits h i ledValue
    | enable first num => exact refines_switch h true first num
    | disable first num => exact refines_switch h false first num

/-- Reading a LED whose bit is at the level of a value. -/
theorem get_shows (hmem : MemoryLike exec content) {led : DevLed} (hon : led.disabled = false)
    {k : Nat} (hk : k < 8) (hmask : led.regMask = BitVec.twoPow 8 k) {v : Brightness} {s : σ}
    (hbit : (content led.addr s).getLsbD k = led.level v) :
    ((_devLedsBrightnessGet led).run exec s).1 = if v ≠ 0 then ledFull else ledOff := by
  have hread : decide (content led.addr s &&& led.regMask ≠ 0) = led.level v := by
    rw [hmask, BitVec.and_twoPow, hbit]
    cases led.level v with
    | false => rfl
    | true =>
      refine decide_eq_true fun hzero => ?_
      have hself := congrArg (BitVec.getLsbD · k) hzero
      rw [if_pos rfl, getLsbD_single hk, decide_eq_true rfl] at hself
      exact Bool.false_ne_true (BitVec.getLsbD_zero.symm.trans hself.symm)
  rw [get_run hmem hon, hread]
  unfold DevLed.level
  cases led.activeLow <;> by_cases hv : v = 0 <;> simp [hv]

theorem Refines.enabled_eq (h : Refines content n leds regs b p) (i : Nat) :
    p.enabled i = !(b.leds i).disabled := by
  rw [h.flags]
  exact (Bool.not_not _).symm

/-- The last value of an enabled LED is read back. -/
theorem Refines.get (hmem : MemoryLike exec content) (hbits : SingleBits n leds)
    (h : Refines content n leds regs b p) {i : Nat} (hi : i < n) {v : Brightness}
    (hlast : p.last i = some v) (hon : p.enabled i = true) :
    ((_devLedsBrightnessGet (b.leds i)).run exec b.regs).1 = if v ≠ 0 then ledFull else ledOff := by
  obtain ⟨k, hk, hmask⟩ := hbits.single i hi
  have hbit : (leds i).regMask.getLsbD k = true := by
    rw [hmask, getLsbD_single hk]
    exact decide_eq_true rfl
  have hshows := h.shows i hi v hlast k hbit
  rw [h.enabled_eq, Bool.not_eq_true'] at hon
  rw [h.flags] at hon ⊢
  exact get_shows hmem hon hk hmask hshows

/-- After any calls, an enabled LED that was set while it was enabled reads back as full or off
as its last such value says, and the bits of no LED are as at first. -/
theorem leds_show_last_set (hmem : MemoryLike exec content) (hbits : SingleBits n leds) (regs : σ)
    (ops : List (Op n)) :
    (∀ i, i < n → ∀ v, (ops.foldl Panel.apply (Panel.initial leds)).last i = some v →
      (ops.foldl Panel.apply (Panel.initial leds)).enabled i = true →
        ((_devLedsBrightnessGet ((ops.foldl (Bank.apply exec) ⟨leds, regs⟩).leds i)).run exec
          (ops.foldl (Bank.apply exec) ⟨leds, regs⟩).regs).1 =
            if v ≠ 0 then ledFull else ledOff) ∧
    ∀ addr k, ¬ Owned n leds addr k →
      (content addr (ops.foldl (Bank.apply exec) ⟨leds, regs⟩).regs).getLsbD k =
        (content addr regs).getLsbD k := by
  have hrun := refines_run hmem hbits ops (refines_initial content n leds regs)
  exact ⟨fun i hi v hlast hon => hrun.get hmem hbits hi hlast hon, hrun.rest⟩

end Refinement

/-! ## Two LEDs of one register -/

/-- Bytes of memory; wider accesses are not served. -/
def byteMemory : Bus (Iomem → BitVec 8) 32 where
  rawRead
    | .w8, addr, s => (s addr, s)
    | _, _, s => (0, s)
  rawWrite
    | .w8, val, addr, s => Function.update s addr val
    | _, _, _, s => s
  pageSize := 4096
  vmallocToPage := fun _ => none

theorem byteMemory_memoryLike :
    MemoryLike (execReg byteMemory .zero) fun addr s => s addr where
  memory _ :=
    { read := fun _ => rfl
      read_keeps := fun _ => rfl
      write := fun _ _ => Function.update_self .. }
  apart _ _ hne :=
    { read := fun _ => rfl
      write := fun _ _ => Function.update_of_ne (Ne.symm hne) .. }

/-- Bit 0 lights the first LED when it is set, bit 1 all others when it is not. -/
def twoLeds : Leds := fun i =>
  { regBase := 0x1000, regOffset := 4, regMask := if i = 0 then 1 else 2, enbRegOffset := 0,
    enbRegMask := 0, enbRegValue := 0, enbCtrl := 0, activeLow := i ≠ 0, disabled := false }

theorem twoLeds_singleBits : SingleBits 2 twoLeds where
  base _ _ _ _ := rfl
  single i _ := by
    by_cases hi : i = 0
    · exact ⟨0, by decide, if_pos hi⟩
    · exact ⟨1, by decide, if_neg hi⟩
  distinct i j hi hj _ hmask := by
    change (if i = 0 then (1 : BitVec 8) else 2) = if j = 0 then 1 else 2 at hmask
    by_cases hi0 : i = 0 <;> by_cases hj0 : j = 0 <;> simp [hi0, hj0] at hmask <;> omega

/-- The second LED is switched on, told to go off while it is disabled, and enabled again: it
still reads as on, and bit 7 of the register is as it was. -/
theorem leds_show_last_set_two :
    let ops : List (Op 2) :=
      [.set 0 0, .set 1 7, .disable 1 1, .set 1 0, .set 0 255, .enable 0 2]
    let b := ops.foldl (Bank.apply (execReg byteMemory .zero)) ⟨twoLeds, fun _ => 0xa7⟩
    ((_devLedsBrightnessGet (b.leds 1)).run (execReg byteMemory .zero) b.regs).1 = ledFull ∧
      (b.regs 0x1004).getLsbD 7 = true := by
  intro ops b
  obtain ⟨hshows, hrest⟩ :=
    leds_show_last_set byteMemory_memoryLike twoLeds_singleBits (fun _ => 0xa7) ops
  have hfree : ¬ Owned 2 twoLeds 0x1004 7 := by
    rintro ⟨i, _, _, hbit⟩
    change (if i = 0 then (1 : BitVec 8) else 2).getLsbD 7 = true at hbit
    by_cases hi : i = 0 <;> simp [hi] at hbit
  exact ⟨hshows 1 (by decide) 7 rfl rfl, hrest 0x1004 7 hfree⟩

end LinuxDeviceDriver.Led
