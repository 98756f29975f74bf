import LinuxDeviceDriver.Netrelay.Thread

/-!
# Two EOE relays facing each other

The thread to the network of one machine and the thread to the service of another one, with a wire
between them that keeps the order of its frames. The machines may differ in their byte order and in
the width of their `size_t`; nothing is known of what their buffers held at first. A frame on the
wire is what one call of `write` has taken.

- Without the filter every payload arrives, in order, with the zeros that fill it up to 64 bytes:
  what was read on the one side is what was written on the other, then what is still on the way.
- With the filter of `eoe_filter.c` nothing arrives. The filter keeps frames of operation code 1;
  the relays send operation code 8, on every machine. The filter is made for the other end of the
  line, and it keeps a relay from taking frames of its own kind, its own included.
-/

namespace LinuxDeviceDriver.Netrelay

open Lib Lib.Bpf Generic

structure Tunnel where
  near : Thread
  wire : List (List Byte)
  far : Thread

inductive TunnelEvent
  | fromService (r : ReadResult)
  | toNet (ret : Option Nat)
  | again
  | fromNet
  | toService (ret : Option Nat)

def Tunnel.start (mem mem' : Int → Byte) : Tunnel :=
  ⟨.start .eoe .serviceToNet mem, [], .start .eoe .netToService mem'⟩

/-- One call of one of the two threads; `again` and `fromNet` are the calls of `read` on the
socket, which gets of a frame as much as its filter says. -/
def Tunnel.step (m m' : Machine) (filterEnable : Bool) (s : Tunnel) :
    TunnelEvent → Option Tunnel
  | .fromService r =>
    (s.near.step m .eoe .serviceToNet (.read r)).map fun near => { s with near := near }
  | .toNet ret =>
    (s.near.step m .eoe .serviceToNet (.write ret)).map fun near =>
      { s with near := near, wire := s.wire ++ near.written.drop s.near.written.length }
  | .again =>
    (s.far.step m' .eoe .netToService (.read .again)).map fun far => { s with far := far }
  | .fromNet =>
    match s.wire with
    | [] => none
    | frame :: wire =>
      if filterEnable && (run eoePacketFilter frame).value == 0 then
        some { s with wire := wire }
      else
        let frame := if filterEnable then frame.take (run eoePacketFilter frame).value else frame
        (s.far.step m' .eoe .netToService (.read (.packet frame))).map fun far =>
          { s with wire := wire, far := far }
  | .toService ret =>
    (s.far.step m' .eoe .netToService (.write ret)).map fun far => { s with far := far }

/-- The interfaces take whole packets. -/
def WholePackets (s : Tunnel) : TunnelEvent → Prop
  | .toNet ret => TakesAll .eoe .serviceToNet s.near (.write ret)
  | .toService ret => TakesAll .eoe .netToService s.far (.write ret)
  | _ => True

/-- A packet that `write` is about to get. -/
def Thread.held (s : Thread) : List (List Byte) := [s.rest].filter (· ≠ [])

/-! ## What the threads make of their packets -/

theorem eoePacket_ne_nil (m : Machine) (p : List Byte) : eoePacket m p ≠ [] := by
  rw [← List.length_pos_iff]
  exact Nat.lt_of_lt_of_le (by decide) (eoePacket_long m p)

theorem drop_eoePacket (m : Machine) (p : List Byte) :
    (eoePacket m p).drop eoeHeaderSize = p ++ padding p :=
  List.drop_left' (length_initEoeHeader ..)

theorem padded_ne_nil (p : List Byte) : p ++ padding p ≠ [] := by
  rw [← List.length_pos_iff, length_padded]
  exact lt_max_of_lt_right (by decide)

/-- The operation code of a relay is not the one its filter keeps. -/
theorem eoePacket_filtered (m : Machine) (p : List Byte) :
    (run eoePacketFilter (eoePacket m p)).value = 0 := by
  by_contra hkept
  have hop := ((eoe_value _).mp hkept).opCode
  have hbyte : byteAt (eoePacket m p) 18 = 0x08 ∨ byteAt (eoePacket m p) 18 = 0x80 := by
    cases horder : m.order with
    | little =>
      left
      rw [eoePacket, horder]
      rfl
    | big =>
      right
      rw [eoePacket, horder]
      rfl
  rcases hbyte with hbyte | hbyte
  · rw [hbyte] at hop
    cases hop
  · rw [hbyte] at hop
    cases hop

section Runs

variable {m m' : Machine} {mem mem' : Int → Byte} {filterEnable : Bool} {s s' : Tunnel}

theorem reach_framed {id : RelayId} {priv : Priv} {t : Thread}
    (h : Reach (Thread.step m id priv) (TakesAll id priv) (.start id priv mem) t) :
    Framed m id priv t :=
  h.invariant (start_framed ..) fun h hguard hstep => step_framed h hguard hstep

/-- The frames of the thread to the network, and the one it is about to write. -/
theorem near_frames {t : Thread}
    (h : Reach (Thread.step m .eoe .serviceToNet) (TakesAll .eoe .serviceToNet)
      (.start .eoe .serviceToNet mem) t) :
    t.received.map (eoePacket m) = t.written ++ t.held := by
  have hall : (t.received.map (eoePacket m)).filter (· ≠ []) = t.received.map (eoePacket m) := by
    refine List.filter_eq_self.mpr fun f hf => ?_
    obtain ⟨p, -, rfl⟩ := List.mem_map.mp hf
    exact decide_eq_true (eoePacket_ne_nil m p)
  exact hall.symm.trans (reach_framed h).frames

/-- What was read had room in the buffer. -/
theorem received_fits {id : RelayId} {priv : Priv} {t : Thread}
    (h : Reach (Thread.step m id priv) (TakesAll id priv) (.start id priv mem) t) :
    ∀ p ∈ t.received, headroom id priv + p.length ≤ packetBufferSize id priv := by
  induction h with
  | init =>
    intro p hp
    cases hp
  | tail hreach _ hstep ih =>
    cases step_called hstep with
    | again | repeated | dropped | taken => exact ih
    | packet _ hfits =>
      intro p hp
      rcases List.mem_append.mp hp with hp | hp
      · exact ih p hp
      · rw [List.mem_singleton.mp hp]
        exact (fits_packet_iff (reach_framed hreach).allocated).mp hfits

theorem step_written {id : RelayId} {priv : Priv} {t t' : Thread} {e : ThreadEvent}
    (h : t.step m id priv e = some t') : t.written <+: t'.written := by
  cases step_called h with
  | again | packet | repeated | dropped => exact List.prefix_rfl
  | taken => exact List.prefix_append _ _

theorem step_read_written {id : RelayId} {priv : Priv} {t t' : Thread} {r : ReadResult}
    (h : t.step m id priv (.read r) = some t') : t'.written = t.written := by
  cases step_called h with
  | again | packet => rfl

/-! ## The wire -/

/-- Both threads make runs of their own; `taken` is what has left the wire, read or dropped. -/
structure Linked (m m' : Machine) (mem mem' : Int → Byte) (filterEnable : Bool) (s : Tunnel)
    (taken : List (List Byte)) : Prop where
  near : Reach (Thread.step m .eoe .serviceToNet) (TakesAll .eoe .serviceToNet)
    (.start .eoe .serviceToNet mem) s.near
  far : Reach (Thread.step m' .eoe .netToService) (TakesAll .eoe .netToService)
    (.start .eoe .netToService mem') s.far
  wire : s.near.written = taken ++ s.wire
  received : s.far.received = if filterEnable then [] else taken

section Linked

variable {taken : List (List Byte)} (h : Linked m m' mem mem' filterEnable s taken)

include h

/-- Every frame is the packet of a payload that has room for a header in its buffer. -/
theorem Linked.payload {f : List Byte} (hf : f ∈ taken ++ s.wire) :
    ∃ p, p.length ≤ ipMaxpacket ∧ f = eoePacket m p := by
  rw [← h.wire] at hf
  have hmem : f ∈ s.near.received.map (eoePacket m) := by
    rw [near_frames h.near]
    exact List.mem_append_left _ hf
  obtain ⟨p, hp, rfl⟩ := List.mem_map.mp hmem
  have hfits := received_fits h.near p hp
  simp only [headroom, packetBufferSize] at hfits
  exact ⟨p, by omega, rfl⟩

/-- The thread to the network moves, and what it writes goes on the wire. -/
theorem Linked.nearStep {e : ThreadEvent} {near : Thread}
    (hguard : TakesAll .eoe .serviceToNet s.near e)
    (hstep : s.near.step m .eoe .serviceToNet e = some near) :
    Linked m m' mem mem' filterEnable
      { s with near := near, wire := s.wire ++ near.written.drop s.near.written.length } taken := by
  refine ⟨h.near.tail hguard hstep, h.far, ?_, h.received⟩
  obtain ⟨new, hnew⟩ := step_written hstep
  show near.written = taken ++ (s.wire ++ near.written.drop s.near.written.length)
  rw [← hnew, List.drop_left, h.wire, List.append_assoc]

/-- The thread to the service moves without reading a frame. -/
theorem Linked.farStep {e : ThreadEvent} {far : Thread}
    (hguard : TakesAll .eoe .netToService s.far e) (hframe : ∀ p, e ≠ .read (.packet p))
    (hstep : s.far.step m' .eoe .netToService e = some far) :
    Linked m m' mem mem' filterEnable { s with far := far } taken := by
  refine ⟨h.near, h.far.tail hguard hstep, h.wire, ?_⟩
  show far.received = _
  rw [← h.received]
  cases step_called hstep with
  | again | repeated | dropped | taken => rfl
  | packet => exact absurd rfl (hframe _)

theorem Linked.step {e : TunnelEvent} (hguard : WholePackets s e)
    (hstep : s.step m m' filterEnable e = some s') :
    ∃ taken', Linked m m' mem mem' filterEnable s' taken' := by
  cases e with
  | fromService r =>
    obtain ⟨near, hnear, rfl⟩ := Option.map_eq_some_iff.mp hstep
    have hsame := h.nearStep (by cases r <;> trivial) hnear
    rw [step_read_written hnear, List.drop_length, List.append_nil] at hsame
    exact ⟨taken, hsame⟩
  | toNet ret =>
    obtain ⟨near, hnear, rfl⟩ := Option.map_eq_some_iff.mp hstep
    exact ⟨taken, h.nearStep hguard hnear⟩
  | again =>
    obtain ⟨far, hfar, rfl⟩ := Option.map_eq_some_iff.mp hstep
    exact ⟨taken, h.farStep (by trivial) (fun _ h => by cases h) hfar⟩
  | toService ret =>
    obtain ⟨far, hfar, rfl⟩ := Option.map_eq_some_iff.mp hstep
    exact ⟨taken, h.farStep hguard (fun _ h => by cases h) hfar⟩
  | fromNet =>
    obtain ⟨near, wire, far⟩ := s
    cases wire with
    | nil => cases hstep
    | cons frame wire =>
      obtain ⟨p, -, hp⟩ := h.payload (f := frame) (by simp)
      have hwire : near.written = (taken ++ [frame]) ++ wire := by
        rw [List.append_assoc]
        exact h.wire
      refine ⟨taken ++ [frame], ?_⟩
      cases filterEnable with
      | true =>
        have hdropped : (run eoePacketFilter frame).value = 0 := hp ▸ eoePacket_filtered m p
        simp only [Tunnel.step, hdropped, beq_self_eq_true, Bool.and_self, if_true] at hstep
        cases hstep
        exact ⟨h.near, h.far, hwire, h.received⟩
      | false =>
        obtain ⟨far', hfar, rfl⟩ := Option.map_eq_some_iff.mp hstep
        -- the frame has room for the header that it loses
        have hwhole : TakesAll .eoe .netToService far (.read (.packet frame)) := by
          show eoeHeaderSize ≤ frame.length
          rw [hp, eoePacket, List.length_append, length_initEoeHeader]
          exact Nat.le_add_right _ _
        refine ⟨h.near, h.far.tail hwhole hfar, hwire, ?_⟩
        show far'.received = taken ++ [frame]
        cases step_called hfar with
        | packet => exact congrArg (· ++ [frame]) h.received

/-- What was read on the one side, and where it is now. -/
theorem Linked.delivered (hunfiltered : filterEnable = false) :
    s.near.received.map (fun p => p ++ padding p) =
      s.far.written ++ s.far.held ++ (s.wire ++ s.near.held).map (List.drop eoeHeaderSize) := by
  have hreceived : s.far.received = taken := by rw [h.received, hunfiltered]; rfl
  have hfar : taken.map (List.drop eoeHeaderSize) = s.far.written ++ s.far.held := by
    have hall : (taken.map (List.drop eoeHeaderSize)).filter (· ≠ []) =
        taken.map (List.drop eoeHeaderSize) := by
      refine List.filter_eq_self.mpr fun f hf => ?_
      obtain ⟨frame, hframe, rfl⟩ := List.mem_map.mp hf
      obtain ⟨p, -, rfl⟩ := h.payload (List.mem_append_left _ hframe)
      rw [drop_eoePacket]
      exact decide_eq_true (padded_ne_nil p)
    have hframes := (reach_framed h.far).frames
    rw [hreceived] at hframes
    exact hall.symm.trans hframes
  calc s.near.received.map (fun p => p ++ padding p)
      = (s.near.received.map (eoePacket m)).map (List.drop eoeHeaderSize) := by
        rw [List.map_map]
        exact List.map_congr_left fun p _ => (drop_eoePacket m p).symm
    _ = (taken ++ (s.wire ++ s.near.held)).map (List.drop eoeHeaderSize) := by
        rw [near_frames h.near, h.wire, List.append_assoc]
    _ = _ := by rw [List.map_append, hfar]

/-- A frame on the wire has room in the buffer of the other side. -/
theorem Linked.readable (hunfiltered : filterEnable = false) (hwire : s.wire ≠ [])
    (hreading : s.far.pc = .reading) :
    ∃ s', s.step m m' filterEnable .fromNet = some s' := by
  obtain ⟨near, wire, ⟨buf, pc, received, written⟩⟩ := s
  cases wire with
  | nil => exact absurd rfl hwire
  | cons frame wire =>
    obtain ⟨p, hlen, hp⟩ := h.payload (f := frame) (by simp)
    have hfits : Fits m' .eoe .netToService buf (.packet frame) := by
      rw [fits_packet_iff (reach_framed h.far).allocated, hp, eoePacket, List.length_append,
        length_initEoeHeader, length_padded]
      simp only [headroom, packetBufferSize, ipMaxpacket, eoeMinPayloadSize] at hlen ⊢
      omega
    subst hunfiltered
    cases hreading
    have hread : ∃ far', Thread.step m' .eoe .netToService ⟨buf, .reading, received, written⟩
        (.read (.packet frame)) = some far' := ⟨_, if_pos hfits⟩
    obtain ⟨far', hfar⟩ := hread
    exact ⟨⟨near, wire, far'⟩, Option.map_eq_some_iff.mpr ⟨far', hfar, rfl⟩⟩

end Linked

/-- **Two relays make a tunnel**: without the filter, in every interleaving of the two threads, the
payloads read on one side are those written on the other, filled up to 64 bytes and in order, then
the one about to be written, then those on the wire and before it; and a frame on the wire can be
read. With the filter nothing ever comes out. -/
theorem eoe_tunnel_delivers
    (h : Reach (Tunnel.step m m' filterEnable) WholePackets (.start mem mem') s) :
    (filterEnable = false →
      s.near.received.map (fun p => p ++ padding p) = s.far.written ++ s.far.held ++
        (s.wire ++ s.near.held).map (List.drop eoeHeaderSize) ∧
      (s.wire ≠ [] → s.far.pc = .reading → ∃ s', s.step m m' filterEnable .fromNet = some s')) ∧
    (filterEnable = true → s.far.received = [] ∧ s.far.written = []) := by
  have hstart : Linked m m' mem mem' filterEnable (.start mem mem') [] :=
    ⟨.init, .init, rfl, by cases filterEnable <;> rfl⟩
  obtain ⟨taken, hlinked⟩ : ∃ taken, Linked m m' mem mem' filterEnable s taken := by
    induction h with
    | init => exact ⟨[], hstart⟩
    | tail _ hguard hstep ih =>
      obtain ⟨_, hlinked⟩ := ih
      exact hlinked.step hguard hstep
  refine ⟨fun hoff => ⟨hlinked.delivered hoff, hlinked.readable hoff⟩, fun hon => ?_⟩
  have hnothing : s.far.received = [] := by rw [hlinked.received, hon]; rfl
  have hframes := (reach_framed hlinked.far).frames
  rw [hnothing] at hframes
  exact ⟨hnothing, (List.append_eq_nil_iff.mp hframes.symm).1⟩

end Runs

/-- Three bytes go through. -/
def threeBytesThrough : List TunnelEvent :=
  [.fromService (.packet [1, 2, 3]), .toNet none, .toNet (some 200), .again, .fromNet,
    .toService (some 200)]

def wholePackets (s : Tunnel) : TunnelEvent → Bool
  | .toNet (some k) => s.near.rest.length ≤ k && k != 0
  | .toService (some k) => s.far.rest.length ≤ k && k != 0
  | _ => true

theorem eoe_tunnel_delivers_three_bytes :
    ∃ s, runFrom (Tunnel.step machine64 ⟨32, .big, le_rfl⟩ false)
        (.start (fun _ => 0xAA) fun _ => 0x55) threeBytesThrough = some s ∧
      s.far.written = [[1, 2, 3] ++ List.replicate 61 0] := by
  have hok : ∀ s e, wholePackets s e = true → WholePackets s e := by
    intro s e h
    cases e with
    | fromService r | again | fromNet => trivial
    | toNet ret | toService ret =>
      cases ret with
      | none => trivial
      | some k =>
        obtain ⟨hle, hne⟩ := (Bool.and_eq_true _ _).mp h
        exact ⟨of_decide_eq_true hle, bne_iff_ne.mp hne⟩
  obtain ⟨s, hrun, hchecked, hreceived, hrest⟩ : ∃ s,
      runFrom (Tunnel.step machine64 ⟨32, .big, le_rfl⟩ false)
        (.start (fun _ => 0xAA) fun _ => 0x55) threeBytesThrough = some s ∧
      runFrom (checked (Tunnel.step machine64 ⟨32, .big, le_rfl⟩ false) wholePackets)
        (.start (fun _ => 0xAA) fun _ => 0x55) threeBytesThrough = some s ∧
      s.near.received = [[1, 2, 3]] ∧
      s.far.held ++ (s.wire ++ s.near.held).map (List.drop eoeHeaderSize) = [] :=
    ⟨_, rfl, rfl, rfl, rfl⟩
  have hdelivers := ((eoe_tunnel_delivers (reach_checked hok hchecked)).1 rfl).1
  rw [hreceived, List.append_assoc, hrest, List.append_nil] at hdelivers
  exact ⟨s, hrun, hdelivers.symm⟩

end LinuxDeviceDriver.Netrelay
