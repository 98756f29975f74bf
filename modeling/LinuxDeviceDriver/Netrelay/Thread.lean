import LinuxDeviceDriver.Lib.Transition
import LinuxDeviceDriver.Netrelay.DhcpFilter
import LinuxDeviceDriver.Netrelay.EoeFilter

/-!
# Whole runs of a relay thread

`forward_packet_from_to` reads a packet into its one buffer, edits it there and writes it, in as
many calls of `write` as it takes; then it reads the next one over it. `Thread.step` has one step
for each call of `read` and `write`, with what the call returns; any error but `EAGAIN` and `EINTR`
ends the program.

`forwarded` is the same as a function of the packet alone. The edits do look behind the end of short
packets, at bytes of earlier ones or of the memory as `malloc` left it: a packet without room for
the EOE header, and a packet of 15 bytes, which has one of the two bytes of a VLAN number. All
others come out as `forwarded` says, over whole runs (`relay_thread_forwards`).
-/

namespace LinuxDeviceDriver.Netrelay

open Lib Lib.Bpf Generic

/-! ## The edits as functions of the packet -/

/-- Another VLAN number for a packet that has one. -/
def retag (vlan : Nat → Nat) (p : List Byte) : List Byte :=
  if 16 ≤ p.length ∧ field p 12 2 = 0x8100 then
    let old := field p 14 2
    let new := (old &&& 0xF000) ||| vlan (old &&& 0xFFF)
    p.take 14 ++ [UInt8.ofNat (new / 256), UInt8.ofNat new] ++ p.drop 16
  else p

/-- What a relay makes of a packet. -/
def forwarded (m : Machine) : RelayId → Priv → List Byte → List Byte
  | _, .off, p => p
  | .eoe, .serviceToNet, p => eoePacket m p
  | .eoe, .netToService, p => p.drop eoeHeaderSize
  | .dhcp, .serviceToNet, p => retag oamVlanOf p
  | .dhcp, .netToService, p => retag dhcpVlanOf p

/-- The edit does not depend on what is behind the packet. -/
def Whole : RelayId → Priv → List Byte → Prop
  | .eoe, .netToService, p => eoeHeaderSize ≤ p.length
  | .dhcp, .serviceToNet, p | .dhcp, .netToService, p => p.length ≠ 15
  | _, _, _ => True

theorem setVlan_size (vlan : Nat → Nat) (b : Buffer) : (setVlan vlan b).size = b.size := by
  unfold setVlan
  split <;> rfl

/-- A range with something stored in the middle of it. -/
theorem bytes_store_inside (mem : Int → Byte) (a : Int) (n k : Nat) (l : List Byte) :
    bytes (store mem (a + n) l) a (n + (l.length + k)) =
      bytes mem a n ++ l ++ bytes mem (a + n + l.length) k := by
  rw [bytes_append, bytes_append, bytes_store, bytes_store_frame _ (Or.inr le_rfl),
    bytes_store_frame _ (Or.inl le_rfl), List.append_assoc]

theorem setVlan_packet (vlan : Nat → Nat) {b : Buffer} (hsize : b.size ≠ 15) :
    (setVlan vlan b).packet = retag vlan b.packet := by
  have hlength : b.packet.length = b.size := length_bytes ..
  unfold retag
  rw [hlength]
  by_cases hlong : 16 ≤ b.size
  · obtain ⟨k, hk⟩ : ∃ k, b.size = 14 + (2 + k) := ⟨b.size - 16, by omega⟩
    rw [field_packet (i := 12) (by omega), field_packet (i := 14) (by omega)]
    unfold setVlan
    by_cases htag : loadBe16 b.mem (b.data + 0xC) = 0x8100
    · have hpacket : b.packet = bytes b.mem b.data 14 ++
          (bytes b.mem (b.data + 14) 2 ++ bytes b.mem (b.data + 14 + 2) k) := by
        rw [Buffer.packet, hk, bytes_append, bytes_append]
        rfl
      have htake : b.packet.take 14 = bytes b.mem b.data 14 := by
        rw [hpacket, List.take_left' (length_bytes ..)]
      have hdrop : b.packet.drop 16 = bytes b.mem (b.data + 14 + 2) k := by
        rw [show 16 = 14 + 2 from rfl, ← List.drop_drop, hpacket, List.drop_left' (length_bytes ..),
          List.drop_left' (length_bytes ..)]
      rw [if_neg (not_not.mpr htag), if_pos ⟨hlong, htag⟩, htake, hdrop]
      show bytes (storeBe16 b.mem (b.data + 14) _) b.data b.size = _
      rw [hk]
      exact bytes_store_inside b.mem b.data 14 k [_, _]
    · rw [if_pos htag, if_neg fun h => htag h.2]
  · rw [if_neg fun h => hlong h.1]
    unfold setVlan
    split
    · rfl
    · exact bytes_store_frame _ (Or.inr (by push_cast; omega))

/-- What the loop that writes starts with. -/
theorem Sends.bytes_eq {b : Buffer} {l : List Byte} (h : Sends b l) :
    bytes b.mem b.data (b.size % 2 ^ 32) = l := by
  have hzero : some 0 ∉ List.replicate l.length (some 1) := by simp [List.mem_replicate]
  have hleft := h.2 (List.replicate l.length (some 1)) hzero (by simp [List.countP_replicate])
  have hsent := (writeLoop_sent b (List.replicate l.length (some 1)) 0 (b.size % 2 ^ 32)).2
  have hall := h.1 _ hleft
  unfold writePacket at hleft hall
  rw [hleft, hall, Nat.cast_zero, add_zero, Nat.sub_zero] at hsent
  exact hsent.symm

section Iteration

variable {m : Machine} {id : RelayId} {priv : Priv} {b : Buffer} {p : List Byte}

/-- One iteration makes of a packet what the relay is to make of it, whatever the buffer held. -/
theorem iteration_forwards (halloc : b.allocated = packetBufferSize id priv)
    (hfits : Fits m id priv b (.packet p)) (hwhole : Whole id priv p) :
    Sends (iteration m id priv b (.packet p)) (forwarded m id priv p) := by
  have hsize := filled_size halloc hfits
  have hbytes := bytes_filled m id priv b p
  have hsmall : p.length < 2 ^ 32 := by
    have hlen := (fits_packet_iff halloc).mp hfits
    have hlt := packetBufferSize_lt id priv
    omega
  have hpacket : (filled m id priv b p).packet = p := by rwa [Buffer.packet, hsize]
  have hplain : Sends (filled m id priv b p) p := sends_bytes (by rwa [hsize]) hpacket
  have hvlan : p.length ≠ 15 → ∀ vlan,
      Sends (setVlan vlan (filled m id priv b p)) (retag vlan p) := by
    intro hne vlan
    refine sends_bytes (by rwa [setVlan_size, hsize]) ?_
    have hset := setVlan_packet vlan (b := filled m id priv b p) (by rwa [hsize])
    rwa [hpacket] at hset
  rw [iteration_packet]
  cases id with
  | dhcp =>
    cases priv with
    | off => exact hplain
    | serviceToNet => exact hvlan hwhole oamVlanOf
    | netToService => exact hvlan hwhole dhcpVlanOf
  | eoe =>
    cases priv with
    | off => exact hplain
    | serviceToNet => exact encapsulated halloc hfits
    | netToService =>
      have hsplit := List.take_append_drop eoeHeaderSize p
      have hstrip := decapsulated (m := m) (b := b) (l := p.drop eoeHeaderSize)
        (List.length_take_of_le hwhole) halloc (by rwa [hsplit])
      rwa [hsplit] at hstrip

end Iteration

/-! ## The thread -/

/-- Where the thread stands: before `read`, or before `write` with this much done and left. -/
inductive ThreadPc
  | reading
  | writing (nbByteWritten nbByteToWrite : Nat)

/-- The thread, the packets it has read and the bytes each call of `write` has taken. -/
structure Thread where
  buf : Buffer
  pc : ThreadPc
  received : List (List Byte)
  written : List (List Byte)

inductive ThreadEvent
  | read (r : ReadResult)
  | write (ret : Option Nat)

/-- The condition of the loop that writes. -/
def loopWrite (nbByteWritten nbByteToWrite : Nat) : ThreadPc :=
  if nbByteToWrite = 0 then .reading else .writing nbByteWritten nbByteToWrite

def Thread.start (id : RelayId) (priv : Priv) (mem : Int → Byte) : Thread :=
  ⟨packetBufferInit id priv mem, .reading, [], []⟩

/-- One call. `read` returns no more than it is given room for; `write` is as in `writeLoop`. -/
def Thread.step (m : Machine) (id : RelayId) (priv : Priv) (s : Thread) :
    ThreadEvent → Option Thread
  | .read r =>
    match s.pc, r with
    | .writing _ _, _ => none
    | .reading, .again => some { s with buf := iteration m id priv s.buf .again }
    | .reading, .packet p =>
      if p.length ≤ bufferDataToTail m.sizeBits (packetBufferPrepare id priv s.buf) then
        let buf := iteration m id priv s.buf (.packet p)
        some { s with
          buf := buf
          pc := loopWrite 0 (buf.size % 2 ^ 32)
          received := s.received ++ [p] }
      else none
  | .write ret =>
    match s.pc, ret with
    | .reading, _ => none
    | .writing _ _, none => some s
    | .writing _ _, some 0 => some { s with pc := .reading }
    | .writing w n, some (k + 1) =>
      let ret := min (k + 1) n
      some { s with
        pc := loopWrite (w + ret) (n - ret)
        written := s.written ++ [bytes s.buf.mem (s.buf.data + w) ret] }

/-- What the loop that writes has still to write. -/
def Thread.rest (s : Thread) : List Byte :=
  match s.pc with
  | .reading => []
  | .writing w n => bytes s.buf.mem (s.buf.data + w) n

section Runs

variable {m : Machine} {id : RelayId} {priv : Priv} {s s' : Thread}

theorem rest_loopWrite (buf : Buffer) (w n : Nat) (received written : List (List Byte)) :
    (Thread.mk buf (loopWrite w n) received written).rest = bytes buf.mem (buf.data + w) n := by
  unfold loopWrite
  by_cases hzero : n = 0
  · rw [if_pos hzero, hzero]
    rfl
  · rw [if_neg hzero]
    rfl

/-- The calls of a thread, one case for each way through them. -/
inductive Called (m : Machine) (id : RelayId) (priv : Priv) (s : Thread) :
    ThreadEvent → Thread → Prop
  | again : s.rest = [] → Called m id priv s (.read .again)
      { s with buf := iteration m id priv s.buf .again, pc := .reading }
  | packet {p : List Byte} : s.rest = [] → Fits m id priv s.buf (.packet p) →
      Called m id priv s (.read (.packet p)) { s with
        buf := iteration m id priv s.buf (.packet p)
        pc := loopWrite 0 ((iteration m id priv s.buf (.packet p)).size % 2 ^ 32)
        received := s.received ++ [p] }
  | repeated : Called m id priv s (.write none) s
  | dropped : Called m id priv s (.write (some 0)) { s with pc := .reading }
  | taken {w n k : Nat} : s.pc = .writing w n → Called m id priv s (.write (some (k + 1)))
      { s with
        pc := loopWrite (w + min (k + 1) n) (n - min (k + 1) n)
        written := s.written ++ [bytes s.buf.mem (s.buf.data + w) (min (k + 1) n)] }

theorem step_called {e : ThreadEvent} (h : s.step m id priv e = some s') :
    Called m id priv s e s' := by
  obtain ⟨buf, pc, received, written⟩ := s
  cases e with
  | read r =>
    cases pc with
    | writing w n => cases h
    | reading =>
      cases r with
      | again =>
        cases h
        exact .again rfl
      | packet p =>
        simp only [Thread.step] at h
        split at h
        · next hfits =>
          cases h
          exact .packet rfl hfits
        · cases h
  | write ret =>
    cases pc with
    | reading => cases h
    | writing w n =>
      cases ret with
      | none =>
        cases h
        exact .repeated
      | some k =>
        cases k with
        | zero =>
          cases h
          exact .dropped
        | succ k =>
          cases h
          exact .taken rfl

/-- Packets that are whole, and calls of `write` that take something. -/
def TakesSome (id : RelayId) (priv : Priv) (_s : Thread) : ThreadEvent → Prop
  | .read (.packet p) => Whole id priv p
  | .write ret => ret ≠ some 0
  | _ => True

/-- Interfaces of packets: a call of `write` takes all it is given. -/
def TakesAll (id : RelayId) (priv : Priv) (s : Thread) : ThreadEvent → Prop
  | .read (.packet p) => Whole id priv p
  | .write (some k) => s.rest.length ≤ k ∧ k ≠ 0
  | _ => True

/-- The bytes of the packets go out in order. -/
structure InOrder (m : Machine) (id : RelayId) (priv : Priv) (s : Thread) : Prop where
  allocated : s.buf.allocated = packetBufferSize id priv
  stream : s.received.flatMap (forwarded m id priv) = s.written.flatten ++ s.rest

theorem start_inOrder (m : Machine) (id : RelayId) (priv : Priv) (mem : Int → Byte) :
    InOrder m id priv (.start id priv mem) := ⟨rfl, rfl⟩

theorem step_inOrder {e : ThreadEvent} (h : InOrder m id priv s) (hguard : TakesSome id priv s e)
    (hstep : s.step m id priv e = some s') : InOrder m id priv s' := by
  obtain ⟨halloc, hstream⟩ := h
  cases step_called hstep with
  | again hrest =>
    rw [hrest] at hstream
    exact ⟨(iteration_allocated ..).trans halloc, hstream⟩
  | @packet p hrest hfits =>
    refine ⟨(iteration_allocated ..).trans halloc, ?_⟩
    rw [rest_loopWrite, Nat.cast_zero, add_zero,
      (iteration_forwards halloc hfits hguard).bytes_eq]
    rw [hrest, List.append_nil] at hstream
    show (s.received ++ [p]).flatMap _ = _
    rw [List.flatMap_append, hstream, List.flatMap_singleton]
  | repeated => exact ⟨halloc, hstream⟩
  | dropped => exact absurd rfl hguard
  | @taken w n k hpc =>
    refine ⟨halloc, ?_⟩
    have hrest : s.rest = bytes s.buf.mem (s.buf.data + w) n := by rw [Thread.rest, hpc]
    have hsplit : n = min (k + 1) n + (n - min (k + 1) n) := by omega
    rw [rest_loopWrite]
    show s.received.flatMap _ = (s.written ++ [_]).flatten ++ _
    rw [hstream, hrest, List.flatten_append, List.flatten_singleton, List.append_assoc,
      Nat.cast_add, ← add_assoc, ← bytes_append, ← hsplit]

theorem loopWrite_left {w n w' n' : Nat} (h : loopWrite w n = .writing w' n') : n' ≠ 0 := by
  unfold loopWrite at h
  split at h
  · cases h
  · next hne =>
    cases h
    exact hne

/-- Packet by packet; nothing is written of an empty one. -/
structure Framed (m : Machine) (id : RelayId) (priv : Priv) (s : Thread) : Prop where
  allocated : s.buf.allocated = packetBufferSize id priv
  left : ∀ w n, s.pc = .writing w n → n ≠ 0
  frames : (s.received.map (forwarded m id priv)).filter (· ≠ []) =
    s.written ++ [s.rest].filter (· ≠ [])

theorem start_framed (m : Machine) (id : RelayId) (priv : Priv) (mem : Int → Byte) :
    Framed m id priv (.start id priv mem) :=
  ⟨rfl, (fun _ _ h => by cases h), rfl⟩

theorem step_framed {e : ThreadEvent} (h : Framed m id priv s) (hguard : TakesAll id priv s e)
    (hstep : s.step m id priv e = some s') : Framed m id priv s' := by
  obtain ⟨halloc, hleft, hframes⟩ := h
  cases step_called hstep with
  | again hrest =>
    rw [hrest] at hframes
    exact ⟨(iteration_allocated ..).trans halloc, (fun _ _ h => by cases h), hframes⟩
  | @packet p hrest hfits =>
    refine ⟨(iteration_allocated ..).trans halloc, fun _ _ => loopWrite_left, ?_⟩
    rw [rest_loopWrite, Nat.cast_zero, add_zero,
      (iteration_forwards halloc hfits hguard).bytes_eq]
    rw [hrest] at hframes
    show ((s.received ++ [p]).map _).filter _ = s.written ++ _
    rw [List.map_append, List.filter_append, hframes]
    simp
  | repeated => exact ⟨halloc, hleft, hframes⟩
  | dropped => exact absurd rfl hguard.2
  | @taken w n k hpc =>
    have hrest : s.rest = bytes s.buf.mem (s.buf.data + w) n := by rw [Thread.rest, hpc]
    have hne : s.rest ≠ [] := by
      rw [hrest, ← List.length_pos_iff, length_bytes]
      exact Nat.pos_of_ne_zero (hleft w n hpc)
    have hall : min (k + 1) n = n := by
      have hle := hguard.1
      rw [hrest, length_bytes] at hle
      omega
    refine ⟨halloc, fun _ _ => loopWrite_left, ?_⟩
    rw [rest_loopWrite, hall, Nat.sub_self]
    show _ = s.written ++ [bytes _ _ n] ++ []
    have hkeep : [s.rest].filter (· ≠ []) = [s.rest] := by
      rw [List.filter_singleton, decide_eq_true hne, cond_true]
    rw [hframes, hkeep, hrest, List.append_nil]

/-- **A relay thread forwards.** In every run, whatever the buffer held at first and however often
`read` and `write` are repeated: as long as the packets are whole and every `write` takes something,
the bytes written are those of the edited packets, in order, up to those it is about to write. If
every `write` takes all, each packet goes out in one call. -/
theorem relay_thread_forwards (mem : Int → Byte)
    (h : Reach (Thread.step m id priv) (TakesSome id priv) (.start id priv mem) s) :
    s.received.flatMap (forwarded m id priv) = s.written.flatten ++ s.rest ∧
    (Reach (Thread.step m id priv) (TakesAll id priv) (.start id priv mem) s →
      (s.received.map (forwarded m id priv)).filter (· ≠ []) =
        s.written ++ [s.rest].filter (· ≠ [])) := by
  have horder : InOrder m id priv s :=
    h.invariant (start_inOrder m id priv mem) fun h hguard hstep => step_inOrder h hguard hstep
  refine ⟨horder.stream, fun hall => ?_⟩
  have hframed : Framed m id priv s :=
    hall.invariant (start_framed m id priv mem) fun h hguard hstep => step_framed h hguard hstep
  exact hframed.frames

end Runs

/-- Three bytes go out in two calls, with a header of their own and without the bytes of the longer
packet that was in the buffer before. -/
def shortAfterLong : List ThreadEvent :=
  [.read (.packet (List.replicate 80 0xFF)), .write (some 200), .read .again,
    .read (.packet [1, 2, 3]), .write none, .write (some 22), .write (some 64)]

def takesSome (_s : Thread) : ThreadEvent → Bool
  | .read _ => true
  | .write ret => ret != some 0

theorem relay_thread_forwards_two_packets :
    ∃ s, runFrom (Thread.step machine64 .eoe .serviceToNet)
        (.start .eoe .serviceToNet fun _ => 0xAA) shortAfterLong = some s ∧
      s.written.flatten = eoePacket machine64 (List.replicate 80 0xFF) ++
        eoePacket machine64 [1, 2, 3] := by
  have hok : ∀ s e, takesSome s e = true → TakesSome .eoe .serviceToNet s e := by
    intro s e h
    cases e with
    | read r => cases r <;> trivial
    | write ret => exact bne_iff_ne.mp h
  obtain ⟨s, hrun, hchecked, hrest, hreceived⟩ : ∃ s,
      runFrom (Thread.step machine64 .eoe .serviceToNet)
        (.start .eoe .serviceToNet fun _ => 0xAA) shortAfterLong = some s ∧
      runFrom (checked (Thread.step machine64 .eoe .serviceToNet) takesSome)
        (.start .eoe .serviceToNet fun _ => 0xAA) shortAfterLong = some s ∧
      s.rest = [] ∧ s.received = [List.replicate 80 0xFF, [1, 2, 3]] := ⟨_, rfl, rfl, rfl, rfl⟩
  have hforwards := (relay_thread_forwards (fun _ => 0xAA) (reach_checked hok hchecked)).1
  rw [hrest, hreceived, List.append_nil] at hforwards
  exact ⟨s, hrun, hforwards.symm.trans (by simp [forwarded])⟩

end LinuxDeviceDriver.Netrelay
