import LinuxDeviceDriver.Kernel
import LinuxDeviceDriver.Generic.Access

/-!
# The packet relays: `relay.c`, `eoe_filter.c`, `dhcp_filter.c`

A relay thread reads packets from one interface and writes them to another, through
one buffer that it reuses for every packet. On the way the packet is edited:

- the EOE relay puts a header in front of a packet on its way to the network, after
  padding it to a minimum size, and takes the header off on the way back;
- the DHCP relay changes the VLAN number of a tagged packet.

The buffer is a block of `allocated` bytes at `base`; `data` and `size` delimit the
packet. Pointers are modelled by their distance from `base`, and a `size_t` by its
value, with the wrap-around of `sizeBits` bits.
-/

namespace LinuxDeviceDriver.Netrelay

open Lib Generic

/-! ## Buffers -/

/-- `priv`: 0, `SERVICE_TO_NET`, `NET_TO_SERVICE`. -/
inductive Priv
  | off
  | serviceToNet
  | netToService
deriving DecidableEq, Repr

/-- `enum relay_id` -/
inductive RelayId
  | dhcp
  | eoe
deriving DecidableEq, Repr

/-- `struct buffer_s`, and the memory around `base`. -/
structure Buffer where
  allocated : Nat
  data : Int
  size : Nat
  mem : Int → Byte

/-- `n` bytes of memory from `a` on. -/
def bytes (mem : Int → Byte) (a : Int) (n : Nat) : List Byte := slice (fun i => mem (a + i)) 0 n

/-- Store a list of bytes at `a`. -/
def store (mem : Int → Byte) (a : Int) (l : List Byte) : Int → Byte :=
  blit mem (fun i => a + i) (fun i => l.getD i 0) l.length

/-- `bufferInit`; what `malloc` returns holds anything. -/
def bufferInit (size : Nat) (mem : Int → Byte) : Buffer := ⟨size, 0, 0, mem⟩

def bufferReset (b : Buffer) : Buffer := { b with data := 0, size := 0 }

def bufferDataToTail (sizeBits : Nat) (b : Buffer) : Nat :=
  ((b.allocated - b.data) % 2 ^ sizeBits).toNat

def bufferSetDataSize (b : Buffer) (size : Nat) : Buffer := { b with size := size }

/-- `IP_MAXPACKET` -/
def ipMaxpacket : Nat := 65535

/-! ## EOE -/

/-- `EOE_HEADER_SIZE`: the packed struct. -/
def eoeHeaderSize : Nat := 22

/-- `EOE_MIN_PAYLOAD_SIZE` -/
def eoeMinPayloadSize : Nat := 64

/-- The `k` bytes of a number in memory. -/
def hostBytes (order : ByteOrder) (n k : Nat) : List Byte :=
  let little := (List.range k).map fun i => UInt8.ofNat (n / 2 ^ (8 * i))
  match order with
  | .little => little
  | .big => little.reverse

/-- `initEoeHeader`: the bytes of the struct. The first bit field is in the low half of its
byte on a little endian machine, in the high half on a big endian one. -/
def initEoeHeader (order : ByteOrder) (payloadSize : Nat) : List Byte :=
  let dmac : List Byte := [0x06, 0x00, 0x00, 0x00, 0x00, 0xF8]
  let smac : List Byte := [0x06, 0x00, 0x00, 0x00, 0x00, 0x78]
  let tag := hostBytes order 0x81000FFE 4
  let len := hostBytes order ((payloadSize + (eoeHeaderSize - 6 - 6 - 4 - 2)) % 2 ^ 16) 2
  let opCode : List Byte := match order with
    | .little => [0x08]
    | .big => [0x80]
  let itf : List Byte := [0x00, 0x00]
  let protocolId : List Byte := [0x00]
  dmac ++ smac ++ tag ++ len ++ opCode ++ itf ++ protocolId

def extendPacketPayload (b : Buffer) : Buffer :=
  if b.size < eoeMinPayloadSize then
    { b with
      mem := store b.mem (b.data + b.size) (List.replicate (eoeMinPayloadSize - b.size) 0)
      size := eoeMinPayloadSize }
  else b

def addEoeHeader (sizeBits : Nat) (order : ByteOrder) (b : Buffer) : Buffer :=
  let b := extendPacketPayload b
  let header := initEoeHeader order b.size
  let data := b.data - eoeHeaderSize
  { b with
    data := data
    size := (b.size + eoeHeaderSize) % 2 ^ sizeBits
    mem := store b.mem data header }

def delEoeHeader (sizeBits : Nat) (b : Buffer) : Buffer :=
  { b with
    data := b.data + eoeHeaderSize
    size := (b.size + (2 ^ sizeBits - eoeHeaderSize)) % 2 ^ sizeBits }

/-! ## DHCP -/

/-- `ntohs` of the two bytes at `a`. -/
def loadBe16 (mem : Int → Byte) (a : Int) : Nat := (mem a).toNat * 256 + (mem (a + 1)).toNat

/-- `htons` into the two bytes at `a`. -/
def storeBe16 (mem : Int → Byte) (a : Int) (n : Nat) : Int → Byte :=
  store mem a [UInt8.ofNat (n / 256), UInt8.ofNat n]

/-- The new VLAN number of a tagged packet; the priority bits stay. -/
def setVlan (vlan : Nat → Nat) (b : Buffer) : Buffer :=
  if loadBe16 b.mem (b.data + 0xC) ≠ 0x8100 then b
  else
    let old := loadBe16 b.mem (b.data + 0xE)
    { b with mem := storeBe16 b.mem (b.data + 0xE) ((old &&& 0xF000) ||| vlan (old &&& 0xFFF)) }

/-- `oamVlan - 1` as an `unsigned short`; 0 is replaced. -/
def dhcpVlanOf (oamVlan : Nat) : Nat :=
  let dhcpVlan := (oamVlan + (2 ^ 16 - 1)) % 2 ^ 16
  if dhcpVlan = 0 then 4093 else dhcpVlan

def oamVlanOf (dhcpVlan : Nat) : Nat :=
  let oamVlan := dhcpVlan + 1
  if oamVlan = 4094 then 1 else oamVlan

def setDhcpVlan : Buffer → Buffer := setVlan dhcpVlanOf

def setOamVlan : Buffer → Buffer := setVlan oamVlanOf

/-! ## The relay thread -/

/-- A machine: the width of its `size_t`, at least that of an `int`, and its byte order. -/
structure Machine where
  sizeBits : Nat
  order : ByteOrder
  wide : 32 ≤ sizeBits

/-- `packetBufferInit`: how much is allocated. -/
def packetBufferSize : RelayId → Priv → Nat
  | .dhcp, _ => ipMaxpacket
  | .eoe, .off => ipMaxpacket
  | .eoe, .serviceToNet => ipMaxpacket + eoeHeaderSize
  | .eoe, .netToService => ipMaxpacket + eoeHeaderSize

def packetBufferInit (id : RelayId) (priv : Priv) : (Int → Byte) → Buffer :=
  bufferInit (packetBufferSize id priv)

def packetBufferPrepare (id : RelayId) (priv : Priv) (b : Buffer) : Buffer :=
  match id, priv with
  | .eoe, .serviceToNet => { bufferReset b with data := (bufferReset b).data + eoeHeaderSize }
  | _, _ => bufferReset b

def packetEdit (m : Machine) : RelayId → Priv → Buffer → Buffer
  | _, .off => id
  | .eoe, .serviceToNet => addEoeHeader m.sizeBits m.order
  | .eoe, .netToService => delEoeHeader m.sizeBits
  | .dhcp, .serviceToNet => setOamVlan
  | .dhcp, .netToService => setDhcpVlan

/-- What `read` does: a packet has arrived, or the call is to be made again. -/
inductive ReadResult
  | packet (p : List Byte)
  | again

/-- `read` has filled the buffer, and the packet is edited. -/
def receive (m : Machine) (id : RelayId) (priv : Priv) (p : List Byte) (b : Buffer) : Buffer :=
  packetEdit m id priv
    (bufferSetDataSize { b with mem := store b.mem b.data p } (p.length % 2 ^ m.sizeBits))

/-- One iteration of `forward_packet_from_to`, up to the loop that writes. -/
def iteration (m : Machine) (id : RelayId) (priv : Priv) (b : Buffer) : ReadResult → Buffer
  | .packet p => receive m id priv p (packetBufferPrepare id priv b)
  | .again => packetBufferPrepare id priv b

/-- What the loop that writes has done: the memory each call of `write` was given, the bytes
that were taken, and how many were not. -/
structure Written where
  calls : List (Int × Nat)
  sent : List Byte
  left : Nat

/-- The loop that writes, from `nbByteWritten` on. A `write` that fails with `EAGAIN` or
`EINTR` is `none`; otherwise it takes at most what it is given. -/
def writeLoop (b : Buffer) (nbByteWritten nbByteToWrite : Nat) : List (Option Nat) → Written
  | [] => ⟨[], [], nbByteToWrite⟩
  | ret :: rets =>
    if nbByteToWrite = 0 then ⟨[], [], 0⟩
    else
      let call := (b.data + nbByteWritten, nbByteToWrite)
      match ret with
      | none =>
        let rest := writeLoop b nbByteWritten nbByteToWrite rets
        { rest with calls := call :: rest.calls }
      | some 0 => ⟨[call], [], nbByteToWrite⟩
      | some (n + 1) =>
        let ret := min (n + 1) nbByteToWrite
        let rest := writeLoop b (nbByteWritten + ret) (nbByteToWrite - ret) rets
        { rest with
          calls := call :: rest.calls
          sent := bytes b.mem (b.data + nbByteWritten) ret ++ rest.sent }

/-- `unsigned int nbByteToWrite = packetBuf->size` -/
def writePacket (b : Buffer) : List (Option Nat) → Written := writeLoop b 0 (b.size % 2 ^ 32)

/-- The thread's buffer after some iterations. -/
def served (m : Machine) (id : RelayId) (priv : Priv) (mem : Int → Byte)
    (reads : List ReadResult) : Buffer :=
  reads.foldl (iteration m id priv) (packetBufferInit id priv mem)

end LinuxDeviceDriver.Netrelay
