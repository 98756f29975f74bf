import LinuxDeviceDriver.Lib.Transition
import LinuxDeviceDriver.Netrelay.Relay

/-!
# Relay buffers and their bounds

`InBounds b`: the packet lies in the allocated block. Every iteration of a relay thread keeps
its buffer in bounds, with one exception: stripping the EOE header from a packet shorter than
the header makes `size` wrap around (`TooShort`).

- `prepare_inBounds`, `filled_inBounds`, `edit_inBounds_iff`: the three places of an iteration.
- `writeLoop_calls`: what the loop that writes is given lies in the packet.
- `relay_inBounds_iff`: every iteration of every sequence of reads.
-/

namespace LinuxDeviceDriver.Netrelay

open Lib Generic

/-! ## Sizes -/

theorem Machine.pow_le (m : Machine) : 2 ^ 32 ≤ 2 ^ m.sizeBits :=
  Nat.pow_le_pow_right (by decide) m.wide

/-- A number of 32 bits is its own `size_t`. -/
theorem Machine.mod_eq (m : Machine) {n : Nat} (h : n < 2 ^ 32) : n % 2 ^ m.sizeBits = n :=
  Nat.mod_eq_of_lt (h.trans_le m.pow_le)

theorem Machine.bufferDataToTail_eq (m : Machine) {b : Buffer} (hle : b.data ≤ b.allocated)
    (hnn : 0 ≤ b.data) (hsmall : b.allocated < 2 ^ 32) :
    (bufferDataToTail m.sizeBits b : Int) = b.allocated - b.data := by
  have hpow : (2 ^ 32 : Int) ≤ 2 ^ m.sizeBits := by exact_mod_cast m.pow_le
  have hmod : ((b.allocated : Int) - b.data) % 2 ^ m.sizeBits = b.allocated - b.data :=
    Int.emod_eq_of_lt (by omega) (by omega)
  unfold bufferDataToTail
  rw [hmod]
  omega

/-! ## One iteration -/

/-- The packet lies in the allocated block; `size` is the number it is. -/
def InBounds (b : Buffer) : Prop := 0 ≤ b.data ∧ b.data + b.size ≤ b.allocated

/-- What `read` returns fits behind `data`. -/
def Fits (m : Machine) (id : RelayId) (priv : Priv) (b : Buffer) : ReadResult → Prop
  | .packet p => p.length ≤ bufferDataToTail m.sizeBits (packetBufferPrepare id priv b)
  | .again => True

/-- A packet that is to lose a header which it is too short to have. -/
def TooShort (id : RelayId) (priv : Priv) : ReadResult → Prop
  | .packet p => id = .eoe ∧ priv = .netToService ∧ p.length < eoeHeaderSize
  | .again => False

/-- The buffer as `read` and `bufferSetDataSize` leave it. -/
def filled (m : Machine) (id : RelayId) (priv : Priv) (b : Buffer) (p : List Byte) : Buffer :=
  let b := packetBufferPrepare id priv b
  bufferSetDataSize { b with mem := store b.mem b.data p } (p.length % 2 ^ m.sizeBits)

theorem iteration_packet (m : Machine) (id : RelayId) (priv : Priv) (b : Buffer) (p : List Byte) :
    iteration m id priv b (.packet p) = packetEdit m id priv (filled m id priv b p) := rfl

/-- Where the packet starts: behind the room for a header, or at `base`. -/
def headroom : RelayId → Priv → Nat
  | .eoe, .serviceToNet => eoeHeaderSize
  | _, _ => 0

theorem prepare_data (id : RelayId) (priv : Priv) (b : Buffer) :
    (packetBufferPrepare id priv b).data = headroom id priv := by
  cases id <;> cases priv <;> rfl

theorem prepare_size (id : RelayId) (priv : Priv) (b : Buffer) :
    (packetBufferPrepare id priv b).size = 0 := by
  cases id <;> cases priv <;> rfl

theorem prepare_allocated (id : RelayId) (priv : Priv) (b : Buffer) :
    (packetBufferPrepare id priv b).allocated = b.allocated := by
  cases id <;> cases priv <;> rfl

theorem headroom_add_le (id : RelayId) (priv : Priv) :
    headroom id priv + eoeHeaderSize ≤ packetBufferSize id priv := by
  cases id <;> cases priv <;> decide

theorem packetBufferSize_lt (id : RelayId) (priv : Priv) : packetBufferSize id priv < 2 ^ 32 := by
  cases id <;> cases priv <;> decide

section Iteration

variable {m : Machine} {id : RelayId} {priv : Priv} {b : Buffer} {p : List Byte}

theorem prepare_inBounds (halloc : b.allocated = packetBufferSize id priv) :
    InBounds (packetBufferPrepare id priv b) := by
  have hroom := headroom_add_le id priv
  unfold InBounds
  rw [prepare_data, prepare_size, prepare_allocated, halloc]
  omega

/-- A packet fits when it ends in the block. -/
theorem fits_packet_iff (halloc : b.allocated = packetBufferSize id priv) :
    Fits m id priv b (.packet p) ↔ headroom id priv + p.length ≤ packetBufferSize id priv := by
  have hroom := headroom_add_le id priv
  have htail := m.bufferDataToTail_eq (b := packetBufferPrepare id priv b)
    (by rw [prepare_data, prepare_allocated, halloc]; omega) (by rw [prepare_data]; omega)
    (by rw [prepare_allocated, halloc]; exact packetBufferSize_lt id priv)
  rw [prepare_data, prepare_allocated, halloc] at htail
  show p.length ≤ bufferDataToTail m.sizeBits (packetBufferPrepare id priv b) ↔ _
  omega

theorem filled_data : (filled m id priv b p).data = headroom id priv := prepare_data id priv b

theorem filled_allocated : (filled m id priv b p).allocated = b.allocated :=
  prepare_allocated id priv b

theorem filled_size (halloc : b.allocated = packetBufferSize id priv)
    (hfits : Fits m id priv b (.packet p)) : (filled m id priv b p).size = p.length := by
  have hlen := (fits_packet_iff halloc).mp hfits
  have hlt := packetBufferSize_lt id priv
  exact m.mod_eq (by omega)

theorem filled_inBounds (halloc : b.allocated = packetBufferSize id priv)
    (hfits : Fits m id priv b (.packet p)) : InBounds (filled m id priv b p) := by
  have hlen := (fits_packet_iff halloc).mp hfits
  unfold InBounds
  rw [filled_data, filled_size halloc hfits, filled_allocated, halloc]
  omega

end Iteration

/-! ## The edits -/

theorem setVlan_inBounds (vlan : Nat → Nat) {b : Buffer} (h : InBounds b) :
    InBounds (setVlan vlan b) := by
  unfold setVlan
  split
  · exact h
  · exact h

theorem extendPacketPayload_size (b : Buffer) :
    (extendPacketPayload b).size = max b.size eoeMinPayloadSize := by
  unfold extendPacketPayload
  split
  · next h => exact (max_eq_right h.le).symm
  · next h => exact (max_eq_left (not_lt.mp h)).symm

theorem extendPacketPayload_data (b : Buffer) : (extendPacketPayload b).data = b.data := by
  unfold extendPacketPayload
  split <;> rfl

theorem extendPacketPayload_allocated (b : Buffer) :
    (extendPacketPayload b).allocated = b.allocated := by
  unfold extendPacketPayload
  split <;> rfl

/-- A packet behind the room for the header stays in bounds when the header is added. -/
theorem addEoeHeader_inBounds (m : Machine) {b : Buffer} (hdata : b.data = eoeHeaderSize)
    (halloc : b.allocated = packetBufferSize .eoe .serviceToNet) (h : InBounds b) :
    InBounds (addEoeHeader m.sizeBits m.order b) := by
  have hsize : (extendPacketPayload b).size + eoeHeaderSize ≤ b.allocated := by
    have hroom : eoeMinPayloadSize + eoeHeaderSize ≤ packetBufferSize .eoe .serviceToNet := by
      decide
    have hle := h.2
    rw [extendPacketPayload_size]
    omega
  have hwrap : ((extendPacketPayload b).size + eoeHeaderSize) % 2 ^ m.sizeBits
      ≤ (extendPacketPayload b).size + eoeHeaderSize := Nat.mod_le ..
  show 0 ≤ (extendPacketPayload b).data - _ ∧
    (extendPacketPayload b).data - eoeHeaderSize +
      (((extendPacketPayload b).size + eoeHeaderSize) % 2 ^ m.sizeBits : Nat) ≤
        ((extendPacketPayload b).allocated : Int)
  rw [extendPacketPayload_data, extendPacketPayload_allocated, hdata]
  omega

theorem delEoeHeader_size (m : Machine) {b : Buffer} (hlong : eoeHeaderSize ≤ b.size)
    (hsmall : b.size < 2 ^ 32) : (delEoeHeader m.sizeBits b).size = b.size - eoeHeaderSize := by
  have hpow := m.pow_le
  have hwrap : b.size + (2 ^ m.sizeBits - eoeHeaderSize) =
      b.size - eoeHeaderSize + 2 ^ m.sizeBits := by omega
  show (b.size + (2 ^ m.sizeBits - eoeHeaderSize)) % 2 ^ m.sizeBits = _
  rw [hwrap, Nat.add_mod_right, m.mod_eq (by omega)]

/-- Removing the header keeps a packet in bounds exactly when it is as long as the header. -/
theorem delEoeHeader_inBounds_iff (m : Machine) {b : Buffer} (hdata : b.data = 0)
    (halloc : b.allocated = packetBufferSize .eoe .netToService) (h : InBounds b) :
    InBounds (delEoeHeader m.sizeBits b) ↔ eoeHeaderSize ≤ b.size := by
  have hpow := m.pow_le
  have hle : b.size ≤ packetBufferSize .eoe .netToService := by
    have := h.2
    omega
  have hlt := packetBufferSize_lt .eoe .netToService
  have hhead : eoeHeaderSize < 2 ^ 32 := by decide
  unfold InBounds
  show 0 ≤ b.data + eoeHeaderSize ∧
    b.data + eoeHeaderSize + ((delEoeHeader m.sizeBits b).size : Int) ≤ b.allocated ↔ _
  rw [hdata, halloc]
  constructor
  · rintro ⟨_, hbound⟩
    -- a shorter packet's `size` is close to `2 ^ sizeBits`
    by_contra hshort
    have hwrap : (delEoeHeader m.sizeBits b).size = b.size + (2 ^ m.sizeBits - eoeHeaderSize) :=
      Nat.mod_eq_of_lt (by omega)
    omega
  · intro hlong
    rw [delEoeHeader_size m hlong (by omega)]
    omega

theorem edit_inBounds_iff {m : Machine} {id : RelayId} {priv : Priv} {b : Buffer} {p : List Byte}
    (halloc : b.allocated = packetBufferSize id priv) (hfits : Fits m id priv b (.packet p)) :
    InBounds (iteration m id priv b (.packet p)) ↔ ¬ TooShort id priv (.packet p) := by
  have hfilled := filled_inBounds halloc hfits
  have hdata : (filled m id priv b p).data = headroom id priv := filled_data
  have hsize := filled_size halloc hfits
  have hblock : (filled m id priv b p).allocated = packetBufferSize id priv :=
    halloc ▸ filled_allocated
  rw [iteration_packet]
  unfold TooShort
  cases id with
  | dhcp =>
    refine iff_of_true ?_ (by simp)
    cases priv with
    | off => exact hfilled
    | serviceToNet => exact setVlan_inBounds _ hfilled
    | netToService => exact setVlan_inBounds _ hfilled
  | eoe =>
    cases priv with
    | off => exact iff_of_true hfilled (by simp)
    | serviceToNet => exact iff_of_true (addEoeHeader_inBounds m hdata hblock hfilled) (by simp)
    | netToService =>
      have hiff := delEoeHeader_inBounds_iff m hdata hblock hfilled
      rw [hsize] at hiff
      refine hiff.trans ?_
      simp

/-! ## The loop that writes -/

/-- Every call of `write` is given memory of what is still to be written. -/
theorem writeLoop_calls (b : Buffer) (rets : List (Option Nat)) :
    ∀ (w n : Nat), ∀ call ∈ (writeLoop b w n rets).calls,
      b.data + w ≤ call.1 ∧ call.1 + call.2 ≤ b.data + w + n := by
  induction rets with
  | nil => exact fun _ _ _ h => absurd h List.not_mem_nil
  | cons ret rets ih =>
    intro w n call hcall
    unfold writeLoop at hcall
    split at hcall
    · cases hcall
    · cases ret with
      | none =>
        rcases List.mem_cons.mp hcall with rfl | hrest
        · exact ⟨le_rfl, le_rfl⟩
        · exact ih w n call hrest
      | some k =>
        cases k with
        | zero =>
          cases List.mem_singleton.mp hcall
          exact ⟨le_rfl, le_rfl⟩
        | succ k =>
          rcases List.mem_cons.mp hcall with rfl | hrest
          · exact ⟨le_rfl, le_rfl⟩
          · have hin := ih _ _ call hrest
            omega

/-- From a packet in bounds, only the allocated block is sent. -/
theorem InBounds.writePacket_calls {b : Buffer} (h : InBounds b) (rets : List (Option Nat)) :
    ∀ call ∈ (writePacket b rets).calls, 0 ≤ call.1 ∧ call.1 + call.2 ≤ b.allocated := by
  intro call hcall
  have hin := writeLoop_calls b rets 0 _ call hcall
  have hsize : b.size % 2 ^ 32 ≤ b.size := Nat.mod_le ..
  have hbounds := h.2
  have hdata := h.1
  omega

/-! ## Whole runs -/

/-- The buffer is in bounds after `bufferPrepare`, after `bufferSetDataSize` and after `edit`,
and what is sent is memory of the block, whatever the calls of `write` return. -/
def IterationInBounds (m : Machine) (id : RelayId) (priv : Priv) (b : Buffer)
    (r : ReadResult) : Prop :=
  InBounds (packetBufferPrepare id priv b) ∧
    ∀ p, r = .packet p → InBounds (filled m id priv b p) ∧
      InBounds (iteration m id priv b r) ∧
      ∀ rets, ∀ call ∈ (writePacket (iteration m id priv b r) rets).calls,
        0 ≤ call.1 ∧ call.1 + call.2 ≤ b.allocated

theorem packetEdit_allocated (m : Machine) (id : RelayId) (priv : Priv) (b : Buffer) :
    (packetEdit m id priv b).allocated = b.allocated := by
  have hvlan : ∀ vlan, (setVlan vlan b).allocated = b.allocated := by
    intro vlan
    unfold setVlan
    split <;> rfl
  cases id with
  | dhcp =>
    cases priv with
    | off => rfl
    | serviceToNet => exact hvlan _
    | netToService => exact hvlan _
  | eoe =>
    cases priv with
    | off => rfl
    | serviceToNet => exact extendPacketPayload_allocated b
    | netToService => rfl

theorem iteration_allocated (m : Machine) (id : RelayId) (priv : Priv) (b : Buffer)
    (r : ReadResult) : (iteration m id priv b r).allocated = b.allocated := by
  cases r with
  | packet p =>
    rw [iteration_packet, packetEdit_allocated]
    exact filled_allocated
  | again => exact prepare_allocated id priv b

/-- One iteration is in bounds exactly when its packet is not too short. -/
theorem iterationInBounds_iff {m : Machine} {id : RelayId} {priv : Priv} {b : Buffer}
    {r : ReadResult} (halloc : b.allocated = packetBufferSize id priv)
    (hfits : Fits m id priv b r) :
    IterationInBounds m id priv b r ↔ ¬ TooShort id priv r := by
  cases r with
  | again => exact iff_of_true ⟨prepare_inBounds halloc, by simp⟩ (by simp [TooShort])
  | packet p =>
    rw [← edit_inBounds_iff halloc hfits]
    constructor
    · rintro ⟨_, hpacket⟩
      exact (hpacket p rfl).2.1
    · intro hedit
      refine ⟨prepare_inBounds halloc, ?_⟩
      rintro p' hp
      cases hp
      refine ⟨filled_inBounds halloc hfits, hedit, ?_⟩
      intro rets
      have hcalls := hedit.writePacket_calls rets
      rw [iteration_allocated] at hcalls
      exact hcalls

/-- **A relay thread stays in its buffer** exactly as long as no packet is too short for the
header it is to lose. -/
theorem relay_inBounds_iff (m : Machine) (id : RelayId) (priv : Priv) (mem : Int → Byte)
    (reads : List ReadResult)
    (hfits : Along (iteration m id priv) (Fits m id priv) (packetBufferInit id priv mem) reads) :
    Along (iteration m id priv) (IterationInBounds m id priv) (packetBufferInit id priv mem) reads ↔
      ∀ r ∈ reads, ¬ TooShort id priv r := by
  rw [← along_forall (iteration m id priv) _ _ (packetBufferInit id priv mem)]
  refine along_iff (I := fun b => b.allocated = packetBufferSize id priv)
    iterationInBounds_iff ?_ rfl hfits
  intro b r halloc _ _
  rw [iteration_allocated, halloc]

/-- A 64 bit machine. -/
def machine64 : Machine := ⟨64, .little, by decide⟩

/-- A packet of a header and one byte, and then another, pass through the relay. -/
theorem relay_inBounds_two_packets :
    (∀ r ∈ [ReadResult.packet (List.replicate 23 7), .again, .packet (List.replicate 22 1)],
      ¬ TooShort .eoe .netToService r) ∧
    Along (iteration machine64 .eoe .netToService) (IterationInBounds machine64 .eoe .netToService)
      (packetBufferInit .eoe .netToService fun _ => 0)
      [.packet (List.replicate 23 7), .again, .packet (List.replicate 22 1)] := by
  have hlong : ∀ r ∈ [ReadResult.packet (List.replicate 23 7), .again,
      .packet (List.replicate 22 1)], ¬ TooShort .eoe .netToService r := by
    simp [TooShort, eoeHeaderSize]
  refine ⟨hlong, (relay_inBounds_iff machine64 .eoe .netToService _ _ ?_).mpr hlong⟩
  refine ⟨?_, trivial, ?_, trivial⟩
  · show 23 ≤ _
    decide
  · show 22 ≤ _
    decide

/-- A packet of four bytes that is to lose its header: `size` is `2 ^ 64 - 18`, and the loop
offers 4 GiB behind `base + 22` to `write`. -/
theorem relay_short_packet_out_of_bounds :
    Along (iteration machine64 .eoe .netToService) (Fits machine64 .eoe .netToService)
      (packetBufferInit .eoe .netToService fun _ => 0) [.packet [1, 2, 3, 4]] ∧
    ¬ Along (iteration machine64 .eoe .netToService)
      (IterationInBounds machine64 .eoe .netToService)
      (packetBufferInit .eoe .netToService fun _ => 0) [.packet [1, 2, 3, 4]] ∧
    (served machine64 .eoe .netToService (fun _ => 0) [.packet [1, 2, 3, 4]]).size = 2 ^ 64 - 18 ∧
    (writePacket (served machine64 .eoe .netToService (fun _ => 0) [.packet [1, 2, 3, 4]])
      [some 0]).calls = [(22, 2 ^ 32 - 18)] := by
  refine ⟨⟨?_, trivial⟩, ?_, by decide, by decide⟩
  · show 4 ≤ _
    decide
  · rintro ⟨⟨_, hpacket⟩, _⟩
    have hout := (hpacket _ rfl).2.1.2
    revert hout
    decide

end LinuxDeviceDriver.Netrelay
