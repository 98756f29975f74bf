import LinuxDeviceDriver.Netrelay.Eoe
import LinuxDeviceDriver.Lib.BitMask
import LinuxDeviceDriver.Lib.Bpf

/-!
# The filter of the EOE relay, and the header it looks for

- `eoePacketFilter`: the program of `eoe_filter.c`; `eoe_decoded` is its listing, `EoeFrame` the
  packets it keeps.
- `eoe_filtered_strip`: what is kept is long enough to lose its header.
- `eoe_header_wire_iff`: the header that the relay sends itself is in network byte order, and has
  its operation code where the filter looks for it, on big endian machines only.
-/

namespace LinuxDeviceDriver.Netrelay

open Lib Lib.Bpf Generic

/-! ## The program -/

/-- `packetFilter` of `eoe_filter.c` -/
def eoePacketFilter : List SockFilter :=
  [⟨0x30, 0, 0, 0x00000012⟩,
   ⟨0x54, 0, 0, 0x000000f0⟩,
   ⟨0x15, 0, 3, 0x00000010⟩,
   ⟨0x28, 0, 0, 0x00000026⟩,
   ⟨0x15, 1, 0, 0x000008ab⟩,
   ⟨0x06, 0, 0, 0x0000ffff⟩,
   ⟨0x06, 0, 0, 0x00000000⟩]

theorem eoe_decoded : eoePacketFilter.map decode =
    [.ldAbs .byte 18,
     .alu .and (.imm 0xf0),
     .jump .eq (.imm 0x10) 0 3,
     .ldAbs .half 38,
     .jump .eq (.imm 0x08ab) 1 0,
     .ret 0xffff,
     .ret 0] := rfl

/-- A packet with operation code 1 and another protocol type than 0x08ab. -/
structure EoeFrame (p : Packet) : Prop where
  long : 40 ≤ p.length
  opCode : byteAt p 18 / 16 = 1
  protocol : field p 38 2 ≠ 0x08ab

theorem byteAt_lt (p : Packet) (i : Nat) : byteAt p i < 2 ^ 8 := UInt8.toNat_lt _

/-- The operation code is the upper half of its byte. -/
theorem opCode_mask (p : Packet) (i : Nat) : byteAt p i &&& 0xf0 = 2 ^ 4 * (byteAt p i / 2 ^ 4) :=
  and_upper (k := 4) (m := 4) (byteAt_lt p i)

/-- The program on an arbitrary packet. -/
theorem eoe_run (p : Packet) : run eoePacketFilter p =
    if 19 ≤ p.length then
      if byteAt p 18 &&& 0xf0 = 0x10 then
        if 40 ≤ p.length then
          if field p 38 2 = 0x08ab then .ret 6 0 else .ret 5 0xffff
        else .outside 3
      else .ret 6 0
    else .outside 0 := by
  rw [run, eoe_decoded]
  simp only [exec_ldAbs, exec_jump, exec_skip, exec_and, exec_ret, Size.bytes, Test.holds,
    decide_eq_true_eq, field_one]

/-- The packets that it keeps. -/
theorem eoe_value (p : Packet) : (run eoePacketFilter p).value ≠ 0 ↔ EoeFrame p := by
  rw [eoe_run, value_guard rfl, value_guard rfl, value_guard rfl, value_guard_not rfl, opCode_mask]
  constructor
  · rintro ⟨-, hop, hlong, hprotocol, -⟩
    exact ⟨hlong, by omega, hprotocol⟩
  · rintro ⟨hlong, hop, hprotocol⟩
    exact ⟨by omega, by omega, hlong, hprotocol, by decide⟩

/-! ## Stripping the header -/

/-- A packet that is long enough loses its header and nothing else. -/
theorem delEoeHeader_packet (m : Machine) {b : Buffer} (hlong : eoeHeaderSize ≤ b.size)
    (hsmall : b.size < 2 ^ 32) :
    (delEoeHeader m.sizeBits b).packet = b.packet.drop eoeHeaderSize := by
  have hsplit : b.size = eoeHeaderSize + (b.size - eoeHeaderSize) := by omega
  show bytes b.mem (b.data + eoeHeaderSize) (delEoeHeader m.sizeBits b).size =
    (bytes b.mem b.data b.size).drop eoeHeaderSize
  rw [delEoeHeader_size m hlong hsmall, hsplit, bytes_append, Nat.add_sub_cancel_left,
    List.drop_left' (length_bytes ..)]

/-- **With its filter attached the direction to the service is safe**: the filter keeps exactly
the packets of `EoeFrame`, and such a packet loses its header and nothing else, in any buffer
and in any iteration of the relay thread. -/
theorem eoe_filtered_strip (m : Machine) (p : Packet) :
    ((run eoePacketFilter p).value ≠ 0 ↔
      40 ≤ p.length ∧ byteAt p 18 / 16 = 1 ∧ field p 38 2 ≠ 0x08ab) ∧
    ((run eoePacketFilter p).value ≠ 0 → p.length ≤ ipMaxpacket + eoeHeaderSize →
      (∀ b : Buffer, b.packet = p → eoeHeaderSize ≤ b.size ∧
        (packetEdit m .eoe .netToService b).size = b.size - eoeHeaderSize ∧
        (packetEdit m .eoe .netToService b).packet = p.drop eoeHeaderSize) ∧
      ∀ mem earlier,
        Fits m .eoe .netToService (served m .eoe .netToService mem earlier) (.packet p) ∧
        Sends (iteration m .eoe .netToService (served m .eoe .netToService mem earlier)
          (.packet p)) (p.drop eoeHeaderSize)) := by
  refine ⟨?_, ?_⟩
  · rw [eoe_value]
    exact ⟨fun h => ⟨h.long, h.opCode, h.protocol⟩, fun h => ⟨h.1, h.2.1, h.2.2⟩⟩
  · intro hkept hmax
    have hheader : eoeHeaderSize ≤ p.length := by
      have hlong := ((eoe_value p).mp hkept).long
      simp only [eoeHeaderSize]
      omega
    have hsmall : p.length < 2 ^ 32 := by
      simp only [ipMaxpacket, eoeHeaderSize] at hmax
      omega
    refine ⟨?_, ?_⟩
    · rintro b rfl
      rw [Buffer.packet, length_bytes] at hheader hsmall
      exact ⟨hheader, delEoeHeader_size m hheader hsmall, delEoeHeader_packet m hheader hsmall⟩
    · intro mem earlier
      have halloc := served_allocated m .eoe .netToService mem earlier
      have hfits : Fits m .eoe .netToService (served m .eoe .netToService mem earlier)
          (.packet p) := by
        rw [fits_packet_iff halloc]
        simpa [headroom, packetBufferSize] using hmax
      refine ⟨hfits, ?_⟩
      have hsplit := List.take_append_drop eoeHeaderSize p
      rw [← hsplit] at hfits ⊢
      have hsends := decapsulated (List.length_take_of_le hheader) halloc hfits
      rwa [hsplit] at hsends ⊢

/-- A packet of operation code 1, of the length of the shortest that is kept. -/
def eoeShortest : Packet := List.replicate 18 0 ++ [0x10] ++ List.replicate 21 7

theorem eoe_filtered_strip_shortest :
    (run eoePacketFilter eoeShortest).value ≠ 0 ∧
    eoeShortest.length ≤ ipMaxpacket + eoeHeaderSize ∧
    Sends (iteration machine64 .eoe .netToService
      (served machine64 .eoe .netToService (fun _ => 0xAA) []) (.packet eoeShortest))
      (List.replicate 18 7) := by
  have hkept : (run eoePacketFilter eoeShortest).value ≠ 0 := by decide
  have hmax : eoeShortest.length ≤ ipMaxpacket + eoeHeaderSize := by decide
  exact ⟨hkept, hmax, (((eoe_filtered_strip machine64 eoeShortest).2 hkept hmax).2 _ []).2⟩

/-! ## The header on the wire -/

/-- What the filter compares with its operation code: its first two instructions, and then
`ret a`. -/
def opCodeInsns : List SockFilter := eoePacketFilter.take 2 ++ [⟨0x16, 0, 0, 0⟩]

theorem run_opCodeInsns {p : Packet} (h : 19 ≤ p.length) :
    run opCodeInsns p = .ret 2 (16 * (byteAt p 18 / 16)) := by
  have hdecoded : opCodeInsns.map decode =
      [.ldAbs .byte 18, .alu .and (.imm 0xf0), .retA] := rfl
  have hmask : byteAt p 18 &&& 0xf0 = 16 * (byteAt p 18 / 16) := opCode_mask p 18
  rw [run, hdecoded]
  simp only [exec_ldAbs, exec_and, exec_retA, Size.bytes, field_one, hmask]
  exact if_pos h

/-- The header of the payload `p` as it is meant to be on the wire: the tag, the length and the
operation code behind the two addresses, in network byte order. -/
structure EoeHeader (p wire : Packet) : Prop where
  tag : (wire.drop 12).take 4 = [0x81, 0x00, 0x0F, 0xFE]
  len : field wire 16 2 = max p.length eoeMinPayloadSize + 4
  opCode : byteAt wire 18 / 16 = 8
  layout : run opCodeInsns wire = .ret 2 (16 * 8)

/-- The two bytes of the length. -/
theorem eoePacket_len {m : Machine} (hbig : m.order = .big) (p : List Byte) :
    field (eoePacket m p) 16 2 = (max p.length eoeMinPayloadSize + 4) % 2 ^ 16 := by
  have hhigh : byteAt (eoePacket m p) 16 =
      (UInt8.ofNat ((max p.length eoeMinPayloadSize + 4) % 2 ^ 16 / 2 ^ 8)).toNat := by
    rw [eoePacket, hbig]
    rfl
  have hlow : byteAt (eoePacket m p) 17 =
      (UInt8.ofNat ((max p.length eoeMinPayloadSize + 4) % 2 ^ 16 / 2 ^ 0)).toNat := by
    rw [eoePacket, hbig]
    rfl
  rw [field_two, hhigh, hlow, UInt8.toNat_ofNat', UInt8.toNat_ofNat']
  omega

theorem eoePacket_long (m : Machine) (p : List Byte) : 19 ≤ (eoePacket m p).length := by
  rw [eoePacket, List.length_append, length_initEoeHeader]
  simp only [eoeHeaderSize]
  omega

/-- A big endian machine sends the header as it is meant to be, as long as the length has 16
bits. -/
theorem eoeHeader_of_big {m : Machine} (hbig : m.order = .big) {p : List Byte}
    (hlen : p.length + 4 < 2 ^ 16) : EoeHeader p (eoePacket m p) := by
  have hop : byteAt (eoePacket m p) 18 = 0x80 := by
    rw [eoePacket, hbig]
    rfl
  refine ⟨?_, ?_, ?_, ?_⟩
  · rw [eoePacket, hbig]
    rfl
  · rw [eoePacket_len hbig]
    simp only [eoeMinPayloadSize]
    omega
  · rw [hop]
  · rw [run_opCodeInsns (eoePacket_long m p), hop]

/-- **The header is in network byte order** exactly on big endian machines, and for payloads
whose length leaves room for the 4 that are added to it. -/
theorem eoe_header_wire_iff (m : Machine) (mem : Int → Byte) (earlier : List ReadResult)
    (p : List Byte) (hp : p.length ≤ ipMaxpacket) :
    Sends (iteration m .eoe .serviceToNet (served m .eoe .serviceToNet mem earlier) (.packet p))
      (eoePacket m p) ∧
    (EoeHeader p (eoePacket m p) ↔ m.order = .big ∧ p.length + 4 < 2 ^ 16) := by
  have halloc := served_allocated m .eoe .serviceToNet mem earlier
  have hfits : Fits m .eoe .serviceToNet (served m .eoe .serviceToNet mem earlier) (.packet p) := by
    rw [fits_packet_iff halloc]
    simp only [headroom, packetBufferSize]
    omega
  refine ⟨encapsulated halloc hfits, ?_⟩
  constructor
  · intro hwire
    have hbig : m.order = .big := by
      cases horder : m.order with
      | big => rfl
      | little =>
        -- the tag is stored from its other end
        have htag := hwire.tag
        rw [eoePacket, horder] at htag
        change [0xFE, 0x0F, 0x00, 0x81] = [0x81, 0x00, 0x0F, 0xFE] at htag
        exact absurd htag (by decide)
    refine ⟨hbig, ?_⟩
    have hlen := hwire.len
    rw [eoePacket_len hbig] at hlen
    omega
  · rintro ⟨hbig, hlen⟩
    exact eoeHeader_of_big hbig hlen

/-- A big endian machine of 32 bits. -/
def machineBig32 : Machine := ⟨32, .big, le_rfl⟩

/-- The longest payload whose length is right. -/
theorem eoe_header_wire_longest :
    (List.replicate 65531 (0 : Byte)).length ≤ ipMaxpacket ∧ machineBig32.order = .big ∧
    EoeHeader (List.replicate 65531 0) (eoePacket machineBig32 (List.replicate 65531 0)) := by
  have hlength : (List.replicate 65531 (0 : Byte)).length = 65531 := List.length_replicate
  have hmax : (List.replicate 65531 (0 : Byte)).length ≤ ipMaxpacket := by
    rw [hlength]
    decide
  have hwire := (eoe_header_wire_iff machineBig32 (fun _ => 0) [] _ hmax).2
  refine ⟨hmax, rfl, hwire.mpr ⟨rfl, ?_⟩⟩
  rw [hlength]
  decide

/-- A little endian machine sends the tag FE 0F 00 81, the length 68 as 0x4400, and an operation
code of 0. -/
theorem eoe_header_wire_little :
    ((eoePacket machine64 [1, 2, 3]).drop 12).take 4 = [0xFE, 0x0F, 0x00, 0x81] ∧
    field (eoePacket machine64 [1, 2, 3]) 16 2 = 0x4400 ∧
    byteAt (eoePacket machine64 [1, 2, 3]) 18 / 16 = 0 ∧
    ¬ EoeHeader [1, 2, 3] (eoePacket machine64 [1, 2, 3]) := by
  refine ⟨by decide, by decide, by decide, ?_⟩
  intro hwire
  exact absurd hwire.opCode (by decide)

end LinuxDeviceDriver.Netrelay
