import LinuxDeviceDriver.Netrelay.Bounds

/-!
# What the EOE relay puts on the wire and takes off it

- `bytes_store`, `bytes_store_frame`, `bytes_append`: lists of bytes in memory.
- `writeLoop_sent`, `writeLoop_left`: the loop that writes sends the packet in order, and it
  ends when the calls of `write` keep taking bytes.
- `encapsulated`, `decapsulated`: one iteration of either direction on a reused buffer.
- `eoe_round_trip`: the two directions together, on two relays.
-/

namespace LinuxDeviceDriver.Netrelay

open Lib Generic

/-! ## Bytes in memory -/

theorem length_bytes (mem : Int → Byte) (a : Int) (n : Nat) : (bytes mem a n).length = n :=
  length_slice ..

theorem bytes_append (mem : Int → Byte) (a : Int) (n k : Nat) :
    bytes mem a (n + k) = bytes mem a n ++ bytes mem (a + n) k := by
  unfold bytes
  rw [slice_add]
  congr 1
  refine slice_congr fun i _ => ?_
  congr 1
  omega

theorem bytes_congr {mem mem' : Int → Byte} {a : Int} {n : Nat}
    (h : ∀ i : Nat, i < n → mem (a + i) = mem' (a + i)) : bytes mem a n = bytes mem' a n :=
  slice_congr fun i hi => by simpa using h i hi

theorem store_lane (mem : Int → Byte) (a : Int) (l : List Byte) {i : Nat} (hi : i < l.length) :
    store mem a l (a + i) = l.getD i 0 :=
  blit_lane mem (fun i : Nat => a + (i : Int)) (fun i => l.getD i 0) (fun j _ h => by omega) hi

theorem bytes_store (mem : Int → Byte) (a : Int) (l : List Byte) :
    bytes (store mem a l) a l.length = l := by
  refine slice_eq_list 0 fun i hi => ?_
  rw [Nat.zero_add, store_lane mem a l hi]

/-- Storing before or behind a range leaves it alone. -/
theorem bytes_store_frame (mem : Int → Byte) {a a' : Int} {l : List Byte} {n : Nat}
    (h : a' + l.length ≤ a ∨ a + n ≤ a') : bytes (store mem a' l) a n = bytes mem a n := by
  refine bytes_congr fun i hi => ?_
  refine blit_frame mem _ _ fun j hj => ?_
  omega

/-- The packet that a buffer holds. -/
def Buffer.packet (b : Buffer) : List Byte := bytes b.mem b.data b.size

/-! ## The loop that writes -/

/-- What has been taken is the packet up to what is left. -/
theorem writeLoop_sent (b : Buffer) (rets : List (Option Nat)) :
    ∀ w n : Nat, (writeLoop b w n rets).left ≤ n ∧
      (writeLoop b w n rets).sent = bytes b.mem (b.data + w) (n - (writeLoop b w n rets).left) := by
  have hnone : ∀ w n : Nat, [] = bytes b.mem (b.data + w) (n - n) := by
    intro w n
    rw [Nat.sub_self]
    rfl
  induction rets with
  | nil => exact fun w n => ⟨le_rfl, hnone w n⟩
  | cons ret rets ih =>
    intro w n
    unfold writeLoop
    split
    · next hzero => exact ⟨Nat.zero_le n, hzero ▸ hnone w 0⟩
    · cases ret with
      | none => exact ih w n
      | some k =>
        cases k with
        | zero => exact ⟨le_rfl, hnone w n⟩
        | succ k =>
          -- the bytes of this call, and behind them those of the later ones
          obtain ⟨hle, hsent⟩ := ih (w + min (k + 1) n) (n - min (k + 1) n)
          have hmin : min (k + 1) n ≤ n := min_le_right ..
          refine ⟨hle.trans (Nat.sub_le ..), ?_⟩
          show bytes _ _ _ ++ (writeLoop b _ _ rets).sent =
            bytes _ _ (n - (writeLoop b _ _ rets).left)
          have hsplit : n - (writeLoop b (w + min (k + 1) n) (n - min (k + 1) n) rets).left =
              min (k + 1) n + (n - min (k + 1) n -
                (writeLoop b (w + min (k + 1) n) (n - min (k + 1) n) rets).left) := by omega
          rw [hsent, hsplit, bytes_append, Nat.cast_add, add_assoc]

/-- Calls of `write` that keep taking bytes come to an end. -/
theorem writeLoop_left (b : Buffer) (rets : List (Option Nat)) (hzero : some 0 ∉ rets) :
    ∀ w n : Nat, n ≤ rets.countP Option.isSome → (writeLoop b w n rets).left = 0 := by
  induction rets with
  | nil => exact fun _ n hn => Nat.le_zero.mp hn
  | cons ret rets ih =>
    have ih := ih fun h => hzero (List.mem_cons_of_mem _ h)
    intro w n hn
    unfold writeLoop
    split
    · rfl
    · next hpos =>
      cases ret with
      | none =>
        rw [List.countP_cons_of_neg (by simp)] at hn
        exact ih w n hn
      | some k =>
        cases k with
        | zero => exact absurd List.mem_cons_self hzero
        | succ k =>
          rw [List.countP_cons_of_pos (by simp)] at hn
          exact ih _ _ (by omega)

/-- `l` is what the loop sends: in every execution that ends, and calls of `write` that keep
taking bytes make it end. -/
def Sends (b : Buffer) (l : List Byte) : Prop :=
  (∀ rets, (writePacket b rets).left = 0 → (writePacket b rets).sent = l) ∧
    ∀ rets, some 0 ∉ rets → l.length ≤ rets.countP Option.isSome → (writePacket b rets).left = 0

theorem sends_bytes {b : Buffer} {l : List Byte} (hsmall : b.size < 2 ^ 32)
    (hl : bytes b.mem b.data b.size = l) : Sends b l := by
  have hmod : b.size % 2 ^ 32 = b.size := Nat.mod_eq_of_lt hsmall
  unfold Sends writePacket
  rw [hmod]
  constructor
  · intro rets hleft
    have hsent := (writeLoop_sent b rets 0 b.size).2
    rw [hleft, Nat.cast_zero, add_zero, Nat.sub_zero, hl] at hsent
    exact hsent
  · intro rets hzero hcount
    rw [← hl, length_bytes] at hcount
    exact writeLoop_left b rets hzero 0 _ hcount

/-! ## The two directions -/

/-- Zero bytes that make the payload long enough. -/
def padding (p : List Byte) : List Byte := List.replicate (eoeMinPayloadSize - p.length) 0

theorem length_padded (p : List Byte) :
    (p ++ padding p).length = max p.length eoeMinPayloadSize := by
  rw [List.length_append, padding, List.length_replicate]
  omega

theorem length_initEoeHeader (order : ByteOrder) (n : Nat) :
    (initEoeHeader order n).length = eoeHeaderSize := by
  cases order <;> rfl

theorem bytes_filled (m : Machine) (id : RelayId) (priv : Priv) (b : Buffer) (p : List Byte) :
    bytes (filled m id priv b p).mem (filled m id priv b p).data p.length = p :=
  bytes_store ..

/-- Padding does not depend on what the buffer held behind the packet. -/
theorem bytes_extendPacketPayload {b : Buffer} {p : List Byte} (hsize : b.size = p.length)
    (hp : bytes b.mem b.data p.length = p) :
    bytes (extendPacketPayload b).mem b.data (p ++ padding p).length = p ++ padding p := by
  rw [List.length_append, bytes_append]
  unfold extendPacketPayload
  rw [hsize]
  split
  · show bytes (store b.mem _ (padding p)) _ _ ++ bytes (store b.mem _ (padding p)) _ _ = _
    rw [bytes_store_frame _ (Or.inr le_rfl), hp, bytes_store]
  · next hlong =>
    have hnil : padding p = [] := by
      unfold padding
      rw [Nat.sub_eq_zero_of_le (not_lt.mp hlong)]
      rfl
    rw [hnil, hp]
    rfl

section Directions

variable {m : Machine} {b : Buffer}

/-- The header goes in front of the padded payload, wherever `read` has put the payload. -/
theorem addEoeHeader_sends {p : List Byte} (hsize : b.size = p.length)
    (hp : bytes b.mem b.data p.length = p) (hlen : p.length ≤ ipMaxpacket) :
    Sends (addEoeHeader m.sizeBits m.order b)
      (initEoeHeader m.order (max p.length eoeMinPayloadSize) ++ (p ++ padding p)) := by
  have hext : (extendPacketPayload b).size = (p ++ padding p).length := by
    rw [extendPacketPayload_size, hsize, length_padded]
  have hsmall : (p ++ padding p).length + eoeHeaderSize < 2 ^ 32 := by
    rw [length_padded]
    simp only [ipMaxpacket, eoeMinPayloadSize, eoeHeaderSize] at hlen ⊢
    omega
  have hnew : (addEoeHeader m.sizeBits m.order b).size =
      eoeHeaderSize + (p ++ padding p).length := by
    show ((extendPacketPayload b).size + eoeHeaderSize) % 2 ^ m.sizeBits = _
    rw [hext, m.mod_eq hsmall, add_comm]
  have hheader := length_initEoeHeader m.order (extendPacketPayload b).size
  refine sends_bytes (by omega) ?_
  rw [hnew, bytes_append, ← length_padded, ← hext]
  congr 1
  · rw [← hheader]
    exact bytes_store ..
  · show bytes (store _ ((extendPacketPayload b).data - eoeHeaderSize) _)
      ((extendPacketPayload b).data - eoeHeaderSize + eoeHeaderSize) _ = _
    rw [bytes_store_frame _ (Or.inl (by rw [hheader])), sub_add_cancel, extendPacketPayload_data,
      hext]
    exact bytes_extendPacketPayload hsize hp

/-- The direction to the network sends a header, the payload and its padding. -/
theorem encapsulated {p : List Byte} (halloc : b.allocated = packetBufferSize .eoe .serviceToNet)
    (hfits : Fits m .eoe .serviceToNet b (.packet p)) :
    Sends (iteration m .eoe .serviceToNet b (.packet p))
      (initEoeHeader m.order (max p.length eoeMinPayloadSize) ++ (p ++ padding p)) := by
  have hlen := (fits_packet_iff halloc).mp hfits
  simp only [headroom, packetBufferSize] at hlen
  exact addEoeHeader_sends (filled_size halloc hfits) (bytes_filled ..) (by omega)

/-- The direction to the service sends what is behind the header. -/
theorem decapsulated {header l : List Byte} (hheader : header.length = eoeHeaderSize)
    (halloc : b.allocated = packetBufferSize .eoe .netToService)
    (hfits : Fits m .eoe .netToService b (.packet (header ++ l))) :
    Sends (iteration m .eoe .netToService b (.packet (header ++ l))) l := by
  have hlen := (fits_packet_iff halloc).mp hfits
  have hlt := packetBufferSize_lt .eoe .netToService
  have hfilled := filled_size halloc hfits
  have hbytes := bytes_filled m .eoe .netToService b (header ++ l)
  rw [List.length_append, hheader] at hlen hfilled hbytes
  have hsize : (iteration m .eoe .netToService b (.packet (header ++ l))).size = l.length := by
    have hdel := delEoeHeader_size m (b := filled m .eoe .netToService b (header ++ l)) (by omega)
      (by omega)
    rw [hfilled, Nat.add_sub_cancel_left] at hdel
    exact hdel
  refine sends_bytes (by omega) ?_
  rw [bytes_append] at hbytes
  rw [hsize]
  exact (List.append_inj hbytes (by rw [length_bytes, hheader])).2

end Directions

theorem served_allocated (m : Machine) (id : RelayId) (priv : Priv) (mem : Int → Byte)
    (reads : List ReadResult) :
    (served m id priv mem reads).allocated = packetBufferSize id priv := by
  induction reads using List.reverseRecOn with
  | nil => rfl
  | append_singleton reads r ih =>
    unfold served at ih ⊢
    rw [List.foldl_concat, iteration_allocated, ih]

/-- What the direction to the network makes of a payload. -/
def eoePacket (m : Machine) (p : List Byte) : List Byte :=
  initEoeHeader m.order (max p.length eoeMinPayloadSize) ++ (p ++ padding p)

/-- **Decapsulation undoes encapsulation**, on two relays that have handled any packets before. -/
theorem eoe_round_trip (m m' : Machine) (mem mem' : Int → Byte) (earlier earlier' : List ReadResult)
    (p : List Byte) (hp : p.length ≤ ipMaxpacket) :
    Fits m .eoe .serviceToNet (served m .eoe .serviceToNet mem earlier) (.packet p) ∧
    Sends (iteration m .eoe .serviceToNet (served m .eoe .serviceToNet mem earlier) (.packet p))
      (eoePacket m p) ∧
    (∃ header, header.length = eoeHeaderSize ∧ eoePacket m p = header ++ (p ++ padding p)) ∧
    Fits m' .eoe .netToService (served m' .eoe .netToService mem' earlier')
      (.packet (eoePacket m p)) ∧
    Sends (iteration m' .eoe .netToService (served m' .eoe .netToService mem' earlier')
      (.packet (eoePacket m p))) (p ++ padding p) := by
  have hfits : Fits m .eoe .serviceToNet (served m .eoe .serviceToNet mem earlier) (.packet p) := by
    rw [fits_packet_iff (served_allocated ..)]
    simp only [headroom, packetBufferSize]
    omega
  have hheader := length_initEoeHeader m.order (max p.length eoeMinPayloadSize)
  have hfits' : Fits m' .eoe .netToService (served m' .eoe .netToService mem' earlier')
      (.packet (eoePacket m p)) := by
    rw [fits_packet_iff (served_allocated ..), eoePacket, List.length_append, hheader,
      length_padded]
    simp only [headroom, packetBufferSize, ipMaxpacket, eoeMinPayloadSize] at hp ⊢
    omega
  refine ⟨hfits, ?_, ⟨_, hheader, rfl⟩, hfits', ?_⟩
  · exact encapsulated (served_allocated ..) hfits
  · exact decapsulated hheader (served_allocated ..) hfits'

/-- Three bytes after a longer packet, from a little endian to a big endian machine. -/
theorem eoe_round_trip_three_bytes :
    ([1, 2, 3] : List Byte).length ≤ ipMaxpacket ∧
    Sends (iteration machine64 .eoe .serviceToNet
        (served machine64 .eoe .serviceToNet (fun _ => 0xAA) [.packet (List.replicate 80 0xFF)])
        (.packet [1, 2, 3])) (eoePacket machine64 [1, 2, 3]) ∧
    Sends (iteration ⟨32, .big, le_rfl⟩ .eoe .netToService
        (served ⟨32, .big, le_rfl⟩ .eoe .netToService (fun _ => 0x55) [.again])
        (.packet (eoePacket machine64 [1, 2, 3]))) ([1, 2, 3] ++ List.replicate 61 0) := by
  have htrip := eoe_round_trip machine64 ⟨32, .big, le_rfl⟩ (fun _ => 0xAA) (fun _ => 0x55)
    [.packet (List.replicate 80 0xFF)] [.again] [1, 2, 3] (by decide)
  exact ⟨by decide, htrip.2.1, htrip.2.2.2.2⟩

end LinuxDeviceDriver.Netrelay
