import ZoneRelay.Frame.SubPacket
import ZoneRelay.Net.Address

/-!
# Packets on the bus

A sub-packet leaves the relay as a message without its framing, together with the client
it came from and the client's character; an answer comes back in the same form. The size
that a message states is the length of its data modulo `2 ^ 16`.
-/

namespace ZoneRelay

namespace Bus

open ZoneRelay.Frame

/-- An application message without framing. -/
structure Message where
  kind : UInt16
  size : UInt16
  sequence : UInt16
  data : Bytes
  deriving DecidableEq

/-- A message and the client it belongs to. -/
structure Routed where
  client : Address
  character : UInt32
  message : Message
  deriving DecidableEq

namespace Routed

/-- The packet that a client's sub-packet leaves as. -/
def ofSubPacket (client : Address) (character : UInt32) (packet : SubPacket) : Routed :=
  ⟨client, character,
    ⟨packet.kind, packet.payload.length.toUInt16, packet.sequence, packet.payload⟩⟩

/-- The sub-packet to send to a client; its number is given when it is packed. -/
def toSubPacket (routed : Routed) : SubPacket :=
  SubPacket.make routed.message.kind routed.message.data

end Routed

end Bus

end ZoneRelay
