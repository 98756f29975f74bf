import Mathlib.Tactic.IntervalCases
import LinuxDeviceDriver.Netrelay.Eoe
import LinuxDeviceDriver.Lib.BitMask
import LinuxDeviceDriver.Lib.Bpf

/-!
# The filter of the DHCP relay, and what it lets through

- `dhcpPacketFilter`: the program of `dhcp_filter.c`; `dhcp_decoded` is its listing.
- `DhcpFrame`: the frames it is meant for. `dhcp_filter_accepts_iff` says that it keeps exactly
  these, and where it ends.
- `vlan_translation_iff`: what `setDhcpVlan` and `setOamVlan` do to such a frame.
-/

namespace LinuxDeviceDriver.Netrelay

open Lib Lib.Bpf

/-! ## The program -/

/-- `packetFilter` of `dhcp_filter.c` -/
def dhcpPacketFilter : List SockFilter :=
  [⟨0x28, 0, 0, 0x0000000c⟩,
   ⟨0x15, 0, 13, 0x00008100⟩,
   ⟨0x28, 0, 0, 0x0000000e⟩,
   ⟨0x54, 0, 0, 0x00000fff⟩,
   ⟨0x15, 10, 0, 0x00000ffe⟩,
   ⟨0x28, 0, 0, 0x00000010⟩,
   ⟨0x15, 0, 8, 0x00000800⟩,
   ⟨0x30, 0, 0, 0x0000001b⟩,
   ⟨0x15, 0, 6, 0x00000011⟩,
   ⟨0x28, 0, 0, 0x00000018⟩,
   ⟨0x45, 4, 0, 0x00001fff⟩,
   ⟨0xb1, 0, 0, 0x00000012⟩,
   ⟨0x48, 0, 0, 0x00000014⟩,
   ⟨0x15, 0, 1, 0x00000044⟩,
   ⟨0x6, 0, 0, 0x00040000⟩,
   ⟨0x6, 0, 0, 0x00000000⟩]

theorem dhcp_decoded : dhcpPacketFilter.map decode =
    [.ldAbs .half 12,
     .jump .eq (.imm 0x8100) 0 13,
     .ldAbs .half 14,
     .alu .and (.imm 0xfff),
     .jump .eq (.imm 4094) 10 0,
     .ldAbs .half 16,
     .jump .eq (.imm 0x800) 0 8,
     .ldAbs .byte 27,
     .jump .eq (.imm 17) 0 6,
     .ldAbs .half 24,
     .jump .set (.imm 0x1fff) 4 0,
     .ldxMsh 18,
     .ldInd .half 20,
     .jump .eq (.imm 68) 0 1,
     .ret 0x40000,
     .ret 0] := rfl

/-- The length of the IP header, in bytes. -/
def ipHeaderSize (p : Packet) : Nat := 4 * (byteAt p 18 &&& 15)

/-- A tagged frame of another VLAN than 4094, with the first fragment of an UDP datagram to
port 68. -/
structure DhcpFrame (p : Packet) : Prop where
  long : 28 ≤ p.length ∧ 18 + ipHeaderSize p + 4 ≤ p.length
  tagged : field p 12 2 = 0x8100
  vlan : field p 14 2 % 2 ^ 12 ≠ 4094
  etherType : field p 16 2 = 0x0800
  protocol : byteAt p 27 = 17
  fragment : field p 24 2 % 2 ^ 13 = 0
  port : field p (18 + ipHeaderSize p + 2) 2 = 68

theorem ipHeaderSize_le (p : Packet) : ipHeaderSize p ≤ 60 := by
  have hnibble : byteAt p 18 &&& 15 ≤ 15 := Nat.and_le_right
  unfold ipHeaderSize
  omega

/-- The program on an arbitrary packet: it looks at one field after the other. -/
theorem dhcp_run (p : Packet) : run dhcpPacketFilter p =
    if 14 ≤ p.length then
      if field p 12 2 = 0x8100 then
        if 16 ≤ p.length then
          if field p 14 2 % 2 ^ 12 = 4094 then .ret 15 0
          else if 18 ≤ p.length then
            if field p 16 2 = 0x800 then
              if 28 ≤ p.length then
                if byteAt p 27 = 17 then
                  if 26 ≤ p.length then
                    if field p 24 2 % 2 ^ 13 ≠ 0 then .ret 15 0
                    else if 19 ≤ p.length then
                      if 18 + ipHeaderSize p + 2 + 2 ≤ p.length then
                        if field p (18 + ipHeaderSize p + 2) 2 = 68 then .ret 14 0x40000
                        else .ret 15 0
                      else .outside 12
                    else .outside 11
                  else .outside 9
                else .ret 15 0
              else .outside 7
            else .ret 15 0
          else .outside 5
        else .outside 2
      else .ret 15 0
    else .outside 0 := by
  have hheader : 4 * (byteAt p 18 &&& 0xf) = ipHeaderSize p := rfl
  have hport : (ipHeaderSize p + 20) % 2 ^ 32 = 18 + ipHeaderSize p + 2 := by
    have := ipHeaderSize_le p
    omega
  have hvlan : field p 14 2 &&& 0xfff = field p 14 2 % 2 ^ 12 :=
    Nat.and_two_pow_sub_one_eq_mod _ 12
  have hfragment : field p 24 2 &&& 0x1fff = field p 24 2 % 2 ^ 13 :=
    Nat.and_two_pow_sub_one_eq_mod _ 13
  rw [run, dhcp_decoded]
  simp only [exec_ldAbs, exec_jump, exec_skip, exec_and, exec_ldxMsh, exec_ldInd, exec_ret,
    Size.bytes, Test.holds, decide_eq_true_eq, hheader, hport, hvlan, hfragment, field_one]

/-- The frames that it keeps. -/
theorem dhcp_value (p : Packet) : (run dhcpPacketFilter p).value ≠ 0 ↔ DhcpFrame p := by
  rw [dhcp_run, value_guard rfl, value_guard rfl, value_guard rfl, value_guard_not rfl,
    value_guard rfl, value_guard rfl, value_guard rfl, value_guard rfl, value_guard rfl,
    value_guard_not rfl, value_guard rfl, value_guard rfl, value_guard rfl]
  constructor
  · rintro ⟨-, htagged, -, hvlan, -, hetherType, hlong, hprotocol, -, hfragment, -, hport, hdest, -⟩
    exact ⟨⟨hlong, hport⟩, htagged, hvlan, hetherType, hprotocol, not_not.mp hfragment, hdest⟩
  · rintro ⟨⟨hlong, hport⟩, htagged, hvlan, hetherType, hprotocol, hfragment, hdest⟩
    exact ⟨by omega, htagged, by omega, hvlan, by omega, hetherType, hlong, hprotocol, by omega,
      not_not.mpr hfragment, by omega, hport, hdest, by decide⟩

/-- The instruction loads a field of the packet. -/
def Loads (filter : List SockFilter) (pc : Nat) : Prop :=
  ∃ size k, (filter.map decode)[pc]? = some (.ldAbs size k) ∨
    (filter.map decode)[pc]? = some (.ldInd size k) ∨
    (filter.map decode)[pc]? = some (.ldxMsh k)

/-- The run has ended at one of the two return instructions. -/
def Returned (o : Outcome) : Prop := o = .ret 14 0x40000 ∨ o = .ret 15 0

theorem returned_ite {c : Prop} [Decidable c] {o o' : Outcome} (h : Returned o)
    (h' : Returned o') : Returned (if c then o else o') := by
  split
  · exact h
  · exact h'

theorem dhcp_returned {pc k : Nat} (h : (dhcpPacketFilter.map decode)[pc]? = some (.ret k)) :
    Returned (.ret pc k) := by
  obtain ⟨hlt, -⟩ := List.getElem?_eq_some_iff.mp h
  have hpc : pc < 16 := hlt
  rw [dhcp_decoded] at h
  interval_cases pc
  all_goals cases h
  · exact Or.inl rfl
  · exact Or.inr rfl

/-- The program ends at a return instruction, or at a load outside the packet. -/
theorem dhcp_ends (p : Packet) : Returned (run dhcpPacketFilter p) ∨
    ∃ pc, run dhcpPacketFilter p = .outside pc ∧ Loads dhcpPacketFilter pc := by
  have hend : EndsAt (dhcpPacketFilter.map decode) 0 (run dhcpPacketFilter p) :=
    exec_ends p rfl (by decide)
  have hindex : ∀ i, 0 + i = i := Nat.zero_add
  generalize run dhcpPacketFilter p = o at hend ⊢
  cases hend with
  | ret h =>
    rw [hindex]
    exact Or.inl (dhcp_returned h)
  | retA h => exact absurd (List.mem_of_getElem? h) (by decide)
  | outside pc size k h =>
    rw [hindex]
    exact Or.inr ⟨pc, rfl, size, k, h⟩
  | divZero h hop =>
    have hmem := List.mem_of_getElem? h
    rw [dhcp_decoded] at hmem
    rcases hop with rfl | rfl
    all_goals simp at hmem

/-- In a frame of 82 bytes no field is missing, whatever the IP header says about its size. -/
theorem dhcp_returned_of_long {p : Packet} (h : 82 ≤ p.length) :
    Returned (run dhcpPacketFilter p) := by
  have hheader := ipHeaderSize_le p
  have hkept : Returned (.ret 14 0x40000) := Or.inl rfl
  have hrejected : Returned (.ret 15 0) := Or.inr rfl
  rw [dhcp_run, if_pos (by omega)]
  refine returned_ite ?_ hrejected
  rw [if_pos (by omega)]
  refine returned_ite hrejected ?_
  rw [if_pos (by omega)]
  refine returned_ite ?_ hrejected
  rw [if_pos (by omega)]
  refine returned_ite ?_ hrejected
  rw [if_pos (by omega)]
  refine returned_ite hrejected ?_
  rw [if_pos (by omega), if_pos (by omega)]
  exact returned_ite hkept hrejected

/-- **The filter keeps exactly the frames it is meant for**, and it ends at one of its two return
instructions, or at a load outside the packet. -/
theorem dhcp_filter_accepts_iff (p : Packet) :
    ((run dhcpPacketFilter p).value ≠ 0 ↔ DhcpFrame p) ∧
    (run dhcpPacketFilter p = .ret 14 0x40000 ∨ run dhcpPacketFilter p = .ret 15 0 ∨
      ∃ pc, run dhcpPacketFilter p = .outside pc ∧ Loads dhcpPacketFilter pc) ∧
    (82 ≤ p.length →
      run dhcpPacketFilter p = .ret 14 0x40000 ∨ run dhcpPacketFilter p = .ret 15 0) :=
  ⟨dhcp_value p, or_assoc.mp (dhcp_ends p), dhcp_returned_of_long⟩

/-- An empty packet is rejected by the first load, and no return instruction is reached. -/
theorem dhcp_filter_stops_at_load : run dhcpPacketFilter [] = .outside 0 ∧
    (dhcpPacketFilter.map decode)[0]? = some (.ldAbs .half 12) ∧
    ∀ pc k, run dhcpPacketFilter [] ≠ .ret pc k := by
  have hstop : run dhcpPacketFilter [] = .outside 0 := rfl
  refine ⟨hstop, rfl, ?_⟩
  intro pc k hret
  rw [hstop] at hret
  cases hret

/-! ## Tags -/

theorem loadBe16_lt (mem : Int → Byte) (a : Int) : loadBe16 mem a < 2 ^ 16 := by
  have hhigh := (mem a).toNat_lt
  have hlow := (mem (a + 1)).toNat_lt
  unfold loadBe16
  omega

theorem storeBe16_high (mem : Int → Byte) (a : Int) (n : Nat) :
    storeBe16 mem a n a = UInt8.ofNat (n / 256) := by
  have hlane := store_lane mem a [UInt8.ofNat (n / 256), UInt8.ofNat n] (i := 0) (Nat.succ_pos 1)
  rwa [Nat.cast_zero, add_zero] at hlane

theorem storeBe16_low (mem : Int → Byte) (a : Int) (n : Nat) :
    storeBe16 mem a n (a + 1) = UInt8.ofNat n :=
  store_lane mem a [UInt8.ofNat (n / 256), UInt8.ofNat n] (i := 1) (Nat.lt_succ_self 1)

theorem storeBe16_frame (mem : Int → Byte) {a x : Int} (n : Nat) (h : x ≠ a) (h' : x ≠ a + 1) :
    storeBe16 mem a n x = mem x := by
  refine blit_frame mem _ _ fun i hi => ?_
  change i < 2 at hi
  have hcases : i = 0 ∨ i = 1 := by omega
  rcases hcases with rfl | rfl
  · rwa [Nat.cast_zero, add_zero]
  · exact h'

theorem loadBe16_storeBe16 (mem : Int → Byte) (a : Int) {n : Nat} (h : n < 2 ^ 16) :
    loadBe16 (storeBe16 mem a n) a = n := by
  unfold loadBe16
  rw [storeBe16_high, storeBe16_low, UInt8.toNat_ofNat', UInt8.toNat_ofNat']
  omega

/-- Storing what was there before restores the memory. -/
theorem storeBe16_restores (mem : Int → Byte) (a : Int) (n : Nat) :
    storeBe16 (storeBe16 mem a n) a (loadBe16 mem a) = mem := by
  have hhigh := (mem a).toNat_lt
  have hlow := (mem (a + 1)).toNat_lt
  funext x
  by_cases hx : x = a
  · rw [hx, storeBe16_high]
    refine UInt8.toNat_inj.mp ?_
    rw [UInt8.toNat_ofNat']
    unfold loadBe16
    omega
  by_cases hx' : x = a + 1
  · rw [hx', storeBe16_low]
    refine UInt8.toNat_inj.mp ?_
    rw [UInt8.toNat_ofNat']
    unfold loadBe16
    omega
  · rw [storeBe16_frame _ _ hx hx', storeBe16_frame _ _ hx hx']

/-! ## The frame in a buffer -/

theorem byteAt_packet {b : Buffer} {i : Nat} (h : i < b.size) :
    byteAt b.packet i = (b.mem (b.data + i)).toNat := by
  simp [byteAt, Buffer.packet, bytes, slice, h]

theorem field_packet {b : Buffer} {i : Nat} (h : i + 1 < b.size) :
    field b.packet i 2 = loadBe16 b.mem (b.data + i) := by
  rw [field_two, byteAt_packet (Nat.lt_of_succ_lt h), byteAt_packet h]
  unfold loadBe16
  rw [Nat.cast_succ, add_assoc]

/-- The tag control information: the upper four bits are priority and drop eligibility, the
others the VLAN number. -/
def Buffer.tci (b : Buffer) : Nat := loadBe16 b.mem (b.data + 0xE)

theorem Buffer.tci_lt (b : Buffer) : b.tci < 2 ^ 16 := loadBe16_lt ..

def Tagged (b : Buffer) : Prop := loadBe16 b.mem (b.data + 0xC) = 0x8100

/-- A new VLAN number of 12 bits goes next to the old priority bits. -/
theorem setVlan_tagged {vlan : Nat → Nat} {b : Buffer} (htag : Tagged b)
    (hfits : vlan (b.tci % 2 ^ 12) < 2 ^ 12) :
    setVlan vlan b = { b with
      mem := storeBe16 b.mem (b.data + 0xE)
        (2 ^ 12 * (b.tci / 2 ^ 12) + vlan (b.tci % 2 ^ 12)) } := by
  have hlow : b.tci &&& 0xFFF = b.tci % 2 ^ 12 := Nat.and_two_pow_sub_one_eq_mod _ 12
  have hhigh : b.tci &&& 0xF000 = 2 ^ 12 * (b.tci / 2 ^ 12) :=
    and_upper (k := 12) (m := 4) b.tci_lt
  have hnew : (b.tci &&& 0xF000) ||| vlan (b.tci &&& 0xFFF) =
      2 ^ 12 * (b.tci / 2 ^ 12) + vlan (b.tci % 2 ^ 12) := by
    rw [hhigh, hlow, ← Nat.two_pow_add_eq_or_of_lt hfits]
  have htagged : ¬ loadBe16 b.mem (b.data + 0xC) ≠ 0x8100 := not_not.mpr htag
  unfold setVlan
  rw [if_neg htagged, ← hnew]
  rfl

section Translation

variable {vlan : Nat → Nat} {b : Buffer} (htag : Tagged b)
  (hfits : vlan (b.tci % 2 ^ 12) < 2 ^ 12)

include htag hfits

theorem setVlan_tci :
    (setVlan vlan b).tci = 2 ^ 12 * (b.tci / 2 ^ 12) + vlan (b.tci % 2 ^ 12) := by
  have hlt := b.tci_lt
  rw [setVlan_tagged htag hfits]
  exact loadBe16_storeBe16 _ _ (by omega)

theorem setVlan_keeps_tag : Tagged (setVlan vlan b) := by
  rw [setVlan_tagged htag hfits]
  show loadBe16 (storeBe16 _ _ _) (b.data + 0xC) = 0x8100
  unfold loadBe16
  rw [storeBe16_frame _ _ (by omega) (by omega), storeBe16_frame _ _ (by omega) (by omega)]
  exact htag

/-- Another number for the one just set gives the old frame back, when it is the old number. -/
theorem setVlan_setVlan {back : Nat → Nat}
    (hback : back (vlan (b.tci % 2 ^ 12)) = b.tci % 2 ^ 12) :
    setVlan back (setVlan vlan b) = b := by
  have htci := setVlan_tci htag hfits
  have hdiv : (setVlan vlan b).tci / 2 ^ 12 = b.tci / 2 ^ 12 := by omega
  have hmod : (setVlan vlan b).tci % 2 ^ 12 = vlan (b.tci % 2 ^ 12) := by omega
  have hold : 2 ^ 12 * (b.tci / 2 ^ 12) + b.tci % 2 ^ 12 = loadBe16 b.mem (b.data + 0xE) :=
    Nat.div_add_mod b.tci (2 ^ 12)
  rw [setVlan_tagged (setVlan_keeps_tag htag hfits) (by rw [hmod, hback]; omega), hdiv, hmod,
    hback, hold, setVlan_tagged htag hfits]
  show { b with mem := storeBe16 (storeBe16 b.mem _ _) _ _ } = b
  rw [storeBe16_restores]

end Translation

/-- What the translation to the DHCP VLAN and back is to do: no byte but those of the tag
changes, the priority bits stay, the new number has 12 bits, and the frame comes back as it
was. -/
structure Translates (b : Buffer) : Prop where
  extent : (setDhcpVlan b).data = b.data ∧ (setDhcpVlan b).size = b.size
  others : ∀ x, x ≠ b.data + 0xE → x ≠ b.data + 0xF → (setDhcpVlan b).mem x = b.mem x
  priority : (setDhcpVlan b).tci / 2 ^ 12 = b.tci / 2 ^ 12
  vlan : dhcpVlanOf (b.tci % 2 ^ 12) < 2 ^ 12 ∧
    (setDhcpVlan b).tci % 2 ^ 12 = dhcpVlanOf (b.tci % 2 ^ 12)
  back : setOamVlan (setDhcpVlan b) = b

theorem dhcpVlanOf_of_pos {n : Nat} (hpos : n ≠ 0) (hlt : n < 2 ^ 12) :
    dhcpVlanOf n = if n = 1 then 4093 else n - 1 := by
  have hmod : (n + (2 ^ 16 - 1)) % 2 ^ 16 = n - 1 := by omega
  unfold dhcpVlanOf
  rw [hmod]
  by_cases hone : n = 1
  · rw [if_pos hone, hone]
    rfl
  · rw [if_neg hone]
    exact if_neg (by omega)

/-- The two numberings undo each other, but for 0 and 4094. -/
theorem oamVlanOf_dhcpVlanOf {n : Nat} (hpos : n ≠ 0) (hlt : n < 2 ^ 12) (hne : n ≠ 4094) :
    oamVlanOf (dhcpVlanOf n) = n := by
  rw [dhcpVlanOf_of_pos hpos hlt]
  by_cases hone : n = 1
  · rw [if_pos hone, hone]
    rfl
  · rw [if_neg hone]
    have hsucc : n - 1 + 1 = n := by omega
    unfold oamVlanOf
    rw [hsucc]
    exact if_neg hne

theorem translates_of_vlan {b : Buffer} (htag : Tagged b) (hpos : b.tci % 2 ^ 12 ≠ 0)
    (hne : b.tci % 2 ^ 12 ≠ 4094) : Translates b := by
  have hlt : b.tci % 2 ^ 12 < 2 ^ 12 := Nat.mod_lt _ (by decide)
  have hfits : dhcpVlanOf (b.tci % 2 ^ 12) < 2 ^ 12 := by
    rw [dhcpVlanOf_of_pos hpos hlt]
    split <;> omega
  have htci : (setDhcpVlan b).tci = _ := setVlan_tci htag hfits
  have hset : setDhcpVlan b = _ := setVlan_tagged htag hfits
  refine ⟨?_, ?_, ?_, ⟨hfits, ?_⟩, ?_⟩
  · rw [hset]
    exact ⟨rfl, rfl⟩
  · intro x hx hx'
    rw [hset]
    exact storeBe16_frame _ _ hx (by rwa [add_assoc])
  · omega
  · omega
  · exact setVlan_setVlan htag hfits (oamVlanOf_dhcpVlanOf hpos hlt hne)

/-- **A frame that the filter keeps is translated and comes back** exactly when its VLAN number
is not 0. -/
theorem vlan_translation_iff (b : Buffer) (h : (run dhcpPacketFilter b.packet).value ≠ 0) :
    Translates b ↔ b.tci % 2 ^ 12 ≠ 0 := by
  have hframe := (dhcp_value b.packet).mp h
  have hsize : 28 ≤ b.size := by
    have hlong := hframe.long.1
    rwa [Buffer.packet, length_bytes] at hlong
  have htag : Tagged b := by
    have htagged := hframe.tagged
    rwa [field_packet (by omega)] at htagged
  have hvlan : b.tci % 2 ^ 12 ≠ 4094 := by
    have hother := hframe.vlan
    rwa [field_packet (by omega)] at hother
  constructor
  · -- number 0 becomes 65535, which has 16 bits
    intro htranslates hzero
    have hfits := htranslates.vlan.1
    rw [hzero] at hfits
    exact absurd hfits (by decide)
  · intro hpos
    exact translates_of_vlan htag hpos hvlan

/-- A DHCP answer with the given tag. -/
def dhcpAnswer (high low : Byte) : List Byte :=
  List.replicate 12 0 ++ [0x81, 0x00, high, low, 0x08, 0x00, 0x45] ++ List.replicate 8 0 ++
    [17] ++ List.replicate 10 0 ++ [0, 67, 0, 68]

/-- A buffer that holds it. -/
def dhcpBuffer (high low : Byte) : Buffer where
  allocated := ipMaxpacket
  data := 0
  size := (dhcpAnswer high low).length
  mem := store (fun _ => 0) 0 (dhcpAnswer high low)

theorem dhcpBuffer_packet (high low : Byte) :
    (dhcpBuffer high low).packet = dhcpAnswer high low := bytes_store ..

/-- VLAN 1 at priority 3 becomes VLAN 4093. -/
theorem vlan_translation_first :
    (run dhcpPacketFilter (dhcpBuffer 0x60 0x01).packet).value ≠ 0 ∧
    (dhcpBuffer 0x60 0x01).tci % 2 ^ 12 ≠ 0 ∧ Translates (dhcpBuffer 0x60 0x01) ∧
    (setDhcpVlan (dhcpBuffer 0x60 0x01)).tci = 0x6FFD := by
  have hkept : (run dhcpPacketFilter (dhcpBuffer 0x60 0x01).packet).value ≠ 0 := by
    rw [dhcpBuffer_packet]
    decide
  have hpos : (dhcpBuffer 0x60 0x01).tci % 2 ^ 12 ≠ 0 := by decide
  exact ⟨hkept, hpos, (vlan_translation_iff _ hkept).mpr hpos, by decide⟩

/-- VLAN 0 at priority 3 becomes 4095 at priority 7, and comes back as 0 at priority 7. -/
theorem vlan_translation_priority_lost :
    (run dhcpPacketFilter (dhcpBuffer 0x60 0x00).packet).value ≠ 0 ∧
    (dhcpBuffer 0x60 0x00).tci = 0x6000 ∧ (setDhcpVlan (dhcpBuffer 0x60 0x00)).tci = 0xFFFF ∧
    (setOamVlan (setDhcpVlan (dhcpBuffer 0x60 0x00))).tci = 0xF000 ∧
    ¬ Translates (dhcpBuffer 0x60 0x00) := by
  have hkept : (run dhcpPacketFilter (dhcpBuffer 0x60 0x00).packet).value ≠ 0 := by
    rw [dhcpBuffer_packet]
    decide
  refine ⟨hkept, by decide, by decide, by decide +kernel, ?_⟩
  intro htranslates
  exact absurd htranslates.vlan.1 (by decide)

end LinuxDeviceDriver.Netrelay
