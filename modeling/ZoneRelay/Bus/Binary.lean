import ZoneRelay.Bus.Packet

/-!
# The binary form of a packet

The fields one after another, numbers little-endian: the kind of address in four bytes, the
bytes of the address in network order, the port, the character, the message's type, size
and number, and its data behind their length in eight bytes. The scope of an IPv6 address
is left out, and reads back as zero. Bytes behind the data are ignored.
-/

namespace ZoneRelay

namespace Bus

namespace Binary

/-! ### Writing -/

/-- The bytes of an address. -/
def address : Address → Bytes
  | .v4 a b c d port => Bytes.ofU32 0 ++ [a, b, c, d] ++ Bytes.ofU16 port
  | .v6 groups _ port =>
    Bytes.ofU32 1 ++ groups.toList.flatMap (fun (g : UInt16) => [(g >>> 8).toUInt8, g.toUInt8]) ++
      Bytes.ofU16 port

/-- The bytes of a message. -/
def message (m : Message) : Bytes :=
  Bytes.ofU16 m.kind ++ Bytes.ofU16 m.size ++ Bytes.ofU16 m.sequence ++
    Bytes.ofU64 m.data.length.toUInt64 ++ m.data

/-- The bytes of a packet. -/
def encode (routed : Routed) : Bytes :=
  address routed.client ++ Bytes.ofU32 routed.character ++ message routed.message

/-! ### Reading -/

/-- The first bytes and the others; none where there are too few. -/
def take? (count : Nat) (data : Bytes) : Option (Bytes × Bytes) :=
  if data.length < count then none else some (data.take count, data.drop count)

/-- A 16-bit number at the front. -/
def u16? (data : Bytes) : Option (UInt16 × Bytes) :=
  (take? 2 data).map fun r => (Bytes.u16At r.1 0, r.2)

/-- A 32-bit number at the front. -/
def u32? (data : Bytes) : Option (UInt32 × Bytes) :=
  (take? 4 data).map fun r => (Bytes.u32At r.1 0, r.2)

/-- A length of eight bytes at the front. -/
def length? (data : Bytes) : Option (Nat × Bytes) :=
  (take? 8 data).map fun r =>
    ((Bytes.u32At r.1 0).toNat + UInt32.size * (Bytes.u32At r.1 4).toNat, r.2)

/-- The groups of an IPv6 address from its sixteen bytes. -/
def groups (octets : Bytes) : Vector UInt16 8 :=
  Vector.ofFn fun i => Bytes.u16 (octets.getD (2 * i + 1) 0) (octets.getD (2 * i) 0)

/-- An address at the front. -/
def address? (data : Bytes) : Option (Address × Bytes) := do
  let (kind, data) ← u32? data
  if kind = 0 then
    let (octets, data) ← take? 4 data
    let (port, data) ← u16? data
    let octet := Bytes.byteAt octets
    return (.v4 (octet 0) (octet 1) (octet 2) (octet 3) port, data)
  else if kind = 1 then
    let (octets, data) ← take? 16 data
    let (port, data) ← u16? data
    return (.v6 (groups octets) 0 port, data)
  else none

/-- A message at the front. -/
def message? (data : Bytes) : Option (Message × Bytes) := do
  let (kind, data) ← u16? data
  let (size, data) ← u16? data
  let (sequence, data) ← u16? data
  let (length, data) ← length? data
  let (content, data) ← take? length data
  return (⟨kind, size, sequence, content⟩, data)

/-- The packet at the front of a byte string. -/
def decode? (data : Bytes) : Option Routed := do
  let (client, data) ← address? data
  let (character, data) ← u32? data
  let (message, _) ← message? data
  return ⟨client, character, message⟩

end Binary

end Bus

end ZoneRelay
