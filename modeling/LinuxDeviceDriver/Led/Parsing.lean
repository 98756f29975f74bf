import LinuxDeviceDriver.Led.Registration

/-!
# From the device tree to register bits

A child node says with `reg-offset` and `bit-index` which bit of which register its LED is. Both
are cells of 32 bits, and both end up in fields of a byte: the offset is cut, and `1 << index` is
cut after it was shifted. So an offset from 256 on names a register that another LED may have,
and an index from 8 on leaves a mask without a bit.

`Faithful` is what an activation should make of the children: each LED has the register and the
mask its node names, different nodes never share a bit, and every LED has one.
`activate_leds` follows a LED from its node through `dev_leds_init`;
`led_parsing_faithful_iff` says for which children the activation is faithful.
-/

namespace LinuxDeviceDriver.Led

open Lib Generic

/-! ## What a LED drives -/

/-- Setting the LED writes bit `b` of the register at `a`. -/
def DevLed.Drives (led : DevLed) (a : Iomem) (b : Nat) : Prop :=
  led.addr = a ∧ led.regMask.getLsbD b = true

/-- The bits a LED drives are those in which LED on and LED off differ. -/
theorem drives_iff_differs {σ : Type} {exec : (c : RegCmd) → σ → c.Answer × σ}
    {content : Iomem → σ → BitVec 8} {led : DevLed} (hmem : MemoryLike exec content)
    (hon : led.disabled = false) (a : Iomem) (b : Nat) (s : σ) :
    led.Drives a b ↔
      (content a ((_devLedsBrightnessSet led ledFull).run exec s).2).getLsbD b ≠
        (content a ((_devLedsBrightnessSet led ledOff).run exec s).2).getLsbD b := by
  rw [set_content hmem hon, set_content hmem hon]
  unfold DevLed.Drives
  by_cases haddr : a = led.addr
  · rw [if_pos haddr, if_pos haddr, getLsbD_merge, getLsbD_merge]
    rw [and_iff_right haddr.symm]
    -- the levels of on and off are opposite, whatever `active_low` is
    have hlevel : led.level ledFull = !led.level ledOff := by
      unfold DevLed.level
      cases led.activeLow <;> decide
    rw [hlevel]
    cases hbit : led.regMask.getLsbD b with
    | false => simp
    | true => cases led.level ledOff <;> simp [hbit]
  · rw [if_neg haddr, if_neg haddr]
    exact iff_of_false (fun h => haddr h.1.symm) fun h => h rfl

/-! ## What a node says -/

/-- `reg-offset` -/
def Child.offset (child : Child) : BitVec 32 := (cell child.regOffset).getD 0

/-- `bit-index`, or `reg-index` without it. -/
def Child.index (child : Child) : BitVec 32 := (cell (child.bitIndex.or child.regIndex)).getD 0

/-- The two values fit what they are stored in. -/
def Child.Fits (child : Child) : Prop := child.offset.toNat < 256 ∧ child.index.toNat < 8

/-- The LEDs have the registers and the bits that their nodes name. -/
structure Faithful (base : Iomem) (children : List Child) (leds : Nat → DevLed) : Prop where
  addr : ∀ i child, children[i]? = some child → (leds i).addr = base + child.offset.toNat
  mask : ∀ i child, children[i]? = some child → (leds i).regMask.toNat = 2 ^ child.index.toNat
  apart : ∀ i j child child', children[i]? = some child → children[j]? = some child' →
    (child.offset, child.index) ≠ (child'.offset, child'.index) →
    ∀ a b, ¬ ((leds i).Drives a b ∧ (leds j).Drives a b)
  alive : ∀ i child, children[i]? = some child → ∃ a b, (leds i).Drives a b

/-! ## What a LED keeps of its node -/

/-- The parts of a descriptor that come from the two properties. -/
structure Cut (child : Child) (led : DevLed) : Prop where
  offset : led.regOffset = child.offset.setWidth 8
  mask : led.regMask = bitMask child.index

theorem parseChild_cut {useWorkqueue : Bool} {child : Child} {led : LedDat}
    (hparse : parseChild useWorkqueue child = .ok led) : Cut child led.toDevLed := by
  have hvalid : child.valid = true := by
    cases hcase : child.valid with
    | true => rfl
    | false =>
      obtain ⟨property, herror⟩ := parseChild_invalid useWorkqueue hcase
      rw [hparse] at herror
      cases herror
  obtain ⟨name, offset, index, brightness, low, hname, hoffset, hindex, hbrightness, hlow⟩ :=
    valid_properties hvalid
  unfold parseChild at hparse
  rw [hname, hoffset, hindex, hbrightness, hlow] at hparse
  cases hparse
  constructor
  · simp only [Child.offset, hoffset, Option.getD_some]
  · simp only [Child.index, hindex, Option.getD_some]

/-- After parsing, the LEDs that were counted are those of the children, in their order. -/
theorem parseChildren_cut {children : List Child} {priv : Priv}
    (hnone : (parseChildren children priv).2 = none) :
    (∀ i, i < priv.numLeds → (parseChildren children priv).1.leds i = priv.leds i) ∧
    (∀ i child, children[i]? = some child →
      Cut child ((parseChildren children priv).1.leds (priv.numLeds + i)).toDevLed) := by
  induction children generalizing priv with
  | nil => exact ⟨fun _ _ => rfl, fun i child hchild => by cases hchild⟩
  | cons first children ih =>
    unfold parseChildren at hnone ⊢
    cases hparse : parseChild priv.useWorkqueue first with
    | error property =>
      rw [hparse] at hnone
      cases hnone
    | ok led =>
      rw [hparse] at hnone
      dsimp only at hnone ⊢
      obtain ⟨hbefore, hrest⟩ := ih hnone
      dsimp only at hbefore hrest
      constructor
      · intro i hi
        rw [hbefore i (Nat.lt_succ_of_lt hi), Function.update_of_ne (Nat.ne_of_lt hi)]
      · intro i child hchild
        cases i with
        | zero =>
          rw [List.getElem?_cons_zero, Option.some_inj] at hchild
          subst hchild
          rw [Nat.add_zero priv.numLeds, hbefore _ (Nat.lt_succ_self _), Function.update_self]
          exact parseChild_cut hparse
        | succ i =>
          have hrest := hrest i child hchild
          rwa [Nat.add_right_comm] at hrest

/-! ## The LEDs after an activation -/

section Activation

variable {σ : Type} (host : Host σ)

/-- An activation that succeeds makes a LED of every child, with the base address of the device
and what is left of the child's two values. -/
theorem activate_leds {env : Env} {d : Dev σ} {base : Iomem} (hbase : env.ofIomap = some base)
    (hok : (ledDevActivate host env d).1 = 0) {i : Nat} {child : Child}
    (hchild : env.children[i]? = some child) :
    ((ledDevActivate host env d).2.led (d.allocated, i)).regBase = base ∧
      Cut child ((ledDevActivate host env d).2.led (d.allocated, i)).toDevLed := by
  have hsome : env.children ≠ [] := by
    intro hempty
    rw [hempty] at hchild
    cases hchild
  have herr : ∀ {ret : Int} {d' : Dev σ}, ret < 0 → (activateErr host ret d').1 ≠ 0 :=
    fun hneg => Int.ne_of_lt hneg
  rw [show d.allocated = d.entered.allocated from rfl]
  unfold ledDevActivate at hok ⊢
  dsimp only at hok ⊢
  rw [if_neg hsome] at hok ⊢
  split at hok
  · exact absurd hok (herr (Errno.neg_lt_zero _))
  · next hcompatible =>
    rw [if_neg hcompatible]
    split at hok
    · exact absurd hok (herr (Errno.neg_lt_zero _))
    · next hkzalloc =>
      rw [if_neg hkzalloc]
      rw [hbase] at hok ⊢
      dsimp only at hok ⊢
      cases hparsed : (parseChildren env.children (.mapped base env.useWorkqueue)).2 with
      | some property =>
        rw [hparsed] at hok
        exact absurd hok (herr (Errno.neg_lt_zero _))
      | none =>
        rw [hparsed] at hok
        dsimp only at hok ⊢
        split at hok
        · exact absurd hok (herr (Errno.neg_lt_zero _))
        · next hworkqueue =>
          rw [if_neg hworkqueue]
          rw [init_alive host rfl (Option.some_ne_none _), if_neg Bool.false_ne_true] at hok ⊢
          split at hok
          · next hneg => exact absurd hok (herr hneg)
          · next hinit =>
            rw [if_neg hinit]
            obtain ⟨-, -, hnum, hvalid⟩ :=
              parseChildren_spec env.children (Parsed.mapped base env.useWorkqueue)
            have hall := List.takeWhile_eq_self_iff.mpr (hvalid.mp hparsed)
            rw [hall] at hnum
            have hi : i < (parseChildren env.children
                (.mapped base env.useWorkqueue)).1.numLeds := by
              rw [hnum]
              exact Nat.lt_of_lt_of_le (List.getElem?_eq_some_iff.mp hchild).1
                (Nat.le_add_left _ _)
            have hled := (init_completes host _ _ _ _ 0 0 _ rfl (Option.some_ne_none _)).2 i
              (Nat.zero_le i) (Nat.lt_of_lt_of_eq hi (Nat.zero_add _).symm)
              (Or.inr (Int.not_lt.mp hinit))
            rw [modifyPriv_modifyPriv] at hled
            have hcut := (parseChildren_cut hparsed).2 i child hchild
            rw [show (Priv.mapped base env.useWorkqueue).numLeds + i = i from Nat.zero_add i]
              at hcut
            rw [modifyPriv_modifyPriv, hled]
            rw [allocate_led]
            exact ⟨rfl, hcut.offset, hcut.mask⟩

end Activation

/-! ## Cutting to a byte -/

theorem bitMask_toNat {index : BitVec 32} (hindex : index.toNat < 8) :
    (bitMask index).toNat = 2 ^ index.toNat := by
  have hpow : 2 ^ index.toNat < 2 ^ 8 := Nat.pow_lt_pow_right (by decide) hindex
  unfold bitMask
  rw [BitVec.toNat_setWidth, BitVec.toNat_shiftLeft, Nat.shiftLeft_eq,
    show (1 : BitVec 32).toNat = 1 from rfl, Nat.one_mul]
  rw [Nat.mod_eq_of_lt (Nat.lt_trans hpow (by decide)), Nat.mod_eq_of_lt hpow]

theorem getLsbD_bitMask {index : BitVec 32} (hindex : index.toNat < 8) (b : Nat) :
    (bitMask index).getLsbD b = decide (index.toNat = b) := by
  rw [BitVec.getLsbD, bitMask_toNat hindex, Nat.testBit_two_pow]

section Cut

variable {child : Child} {led : DevLed}

/-- The LED is what its node names exactly when both values fit. -/
theorem cut_exact_iff (hcut : Cut child led) :
    (led.addr = led.regBase + child.offset.toNat ∧ led.regMask.toNat = 2 ^ child.index.toNat) ↔
      child.Fits := by
  constructor
  · rintro ⟨haddr, hmask⟩
    constructor
    · have hoffset : led.regOffset.toNat = child.offset.toNat := Nat.add_left_cancel haddr
      rw [← hoffset]
      exact led.regOffset.isLt
    · have hlt : 2 ^ child.index.toNat < 2 ^ 8 := hmask ▸ led.regMask.isLt
      exact (Nat.pow_lt_pow_iff_right (by decide)).mp hlt
  · rintro ⟨hoffset, hindex⟩
    constructor
    · unfold DevLed.addr
      rw [hcut.offset, BitVec.toNat_setWidth, Nat.mod_eq_of_lt hoffset]
    · rw [hcut.mask, bitMask_toNat hindex]

/-- When the index fits, the bit it names is the only one. -/
theorem drives_iff (hcut : Cut child led) (hfits : child.Fits) (a : Iomem) (b : Nat) :
    led.Drives a b ↔ led.regBase + child.offset.toNat = a ∧ child.index.toNat = b := by
  unfold DevLed.Drives
  rw [((cut_exact_iff hcut).mpr hfits).1, hcut.mask, getLsbD_bitMask hfits.2, decide_eq_true_iff]

end Cut

/-! ## Faithful activations -/

/-- **Parsing**: the LEDs of a device that was activated are those the device tree describes
exactly when every register offset and every bit index fits its field. -/
theorem led_parsing_faithful_iff {σ : Type} (host : Host σ) (env : Env) (d : Dev σ) {base : Iomem}
    (hbase : env.ofIomap = some base) (hok : (ledDevActivate host env d).1 = 0) :
    Faithful base env.children
        (fun i => ((ledDevActivate host env d).2.led (d.allocated, i)).toDevLed) ↔
      ∀ child ∈ env.children, child.Fits := by
  constructor
  · intro hfaithful child hmem
    obtain ⟨i, hchild⟩ := List.getElem?_of_mem hmem
    obtain ⟨hreg, hcut⟩ := activate_leds host hbase hok hchild
    refine (cut_exact_iff hcut).mp ⟨?_, hfaithful.mask i child hchild⟩
    rw [hreg]
    exact hfaithful.addr i child hchild
  · intro hall
    have hfits : ∀ {i : Nat} {child : Child}, env.children[i]? = some child → child.Fits :=
      fun hchild => hall _ (List.mem_of_getElem? hchild)
    have hdrives : ∀ {i : Nat} {child : Child}, env.children[i]? = some child → ∀ a b,
        ((ledDevActivate host env d).2.led (d.allocated, i)).Drives a b ↔
          base + child.offset.toNat = a ∧ child.index.toNat = b := by
      intro i child hchild a b
      obtain ⟨hreg, hcut⟩ := activate_leds host hbase hok hchild
      rw [drives_iff hcut (hfits hchild), hreg]
    refine ⟨fun i child hchild => ?_, fun i child hchild => ?_, ?_, fun i child hchild => ?_⟩
    · obtain ⟨hreg, hcut⟩ := activate_leds host hbase hok hchild
      have haddr := ((cut_exact_iff hcut).mpr (hfits hchild)).1
      rwa [hreg] at haddr
    · exact ((cut_exact_iff (activate_leds host hbase hok hchild).2).mpr (hfits hchild)).2
    · -- one bit of two LEDs: same register and same index, so the nodes say the same
      intro i j child child' hchild hchild' hne a b ⟨hi, hj⟩
      obtain ⟨haddr, hbit⟩ := (hdrives hchild a b).mp hi
      obtain ⟨haddr', hbit'⟩ := (hdrives hchild' a b).mp hj
      refine hne (Prod.ext (BitVec.eq_of_toNat_eq ?_) (BitVec.eq_of_toNat_eq ?_))
      · exact Nat.add_left_cancel (haddr.trans haddr'.symm)
      · exact hbit.trans hbit'.symm
    · exact ⟨_, _, (hdrives hchild _ _).mpr ⟨rfl, rfl⟩⟩

/-- A child for the bit `index` of the register at `hi * 256 + lo`. -/
def childAt (hi lo index : Byte) : Child :=
  { plainChild with regOffset := some [0, 0, hi, lo], bitIndex := some [0, 0, 0, index] }

/-- A device with these children, on which nothing fails. -/
def withChildren (children : List Child) : Env :=
  { twoChildren true fun _ => 0 with children := children }

theorem led_parsing_faithful_pair :
    Faithful 0x1000 [childAt 0 4 1, childAt 0 5 7] (fun i =>
      ((ledDevActivate plainHost (withChildren [childAt 0 4 1, childAt 0 5 7]) (Dev.fresh 0)).2.led
        (0, i)).toDevLed) := by
  have hfits : ∀ child ∈ [childAt 0 4 1, childAt 0 5 7], child.Fits := by
    unfold Child.Fits
    decide
  exact (led_parsing_faithful_iff plainHost (withChildren [childAt 0 4 1, childAt 0 5 7])
    (Dev.fresh 0) rfl rfl).mpr hfits

/-- The first two LEDs share bit 1 of the register at 0x1004, since the offset 0x104 is cut to 4;
the third has no bit at all. -/
theorem led_parsing_cuts :
    ∃ d, ledDevActivate plainHost (withChildren [childAt 0 4 1, childAt 1 4 1, childAt 0 4 8])
        (Dev.fresh 0) = (0, d) ∧
      (d.led (0, 0)).Drives 0x1004 1 ∧ (d.led (0, 1)).Drives 0x1004 1 ∧
      (∀ a b, ¬ (d.led (0, 2)).Drives a b) ∧
      ¬ Faithful 0x1000 [childAt 0 4 1, childAt 1 4 1, childAt 0 4 8]
        (fun i => (d.led (0, i)).toDevLed) := by
  refine ⟨_, rfl, ⟨rfl, rfl⟩, ⟨rfl, rfl⟩, ?_, ?_⟩
  · rintro a b ⟨-, hbit⟩
    change (0#8).getLsbD b = true at hbit
    rw [BitVec.getLsbD_zero] at hbit
    cases hbit
  · intro hfaithful
    exact hfaithful.apart 0 1 _ _ rfl rfl (by decide) 0x1004 1 ⟨⟨rfl, rfl⟩, rfl, rfl⟩

end LinuxDeviceDriver.Led
