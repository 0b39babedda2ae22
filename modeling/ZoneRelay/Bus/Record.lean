import ZoneRelay.Bus.Packet
import ZoneRelay.Json.Reader

/-!
# The JSON form of a packet

A record with the client's address as a text, the character, and the message as a record
of its own whose data are a list of numbers.
-/

namespace ZoneRelay

namespace Bus

open Json

namespace Record

/-- The names of a message's fields. -/
def messageNames : List String := ["packet_type", "size", "sequence", "data"]

/-- The names of a packet's fields. -/
def packetNames : List String := ["client_addr", "character_id", "packet"]

/-- An object with the given names and values. -/
def object (names : List String) (values : List Value) : Value :=
  .object ((names.map some).zip values)

/-- The value of a message. -/
def ofMessage (m : Message) : Value :=
  object messageNames [.natural m.kind.toNat, .natural m.size.toNat, .natural m.sequence.toNat,
    .list (m.data.map fun b => .natural b.toNat)]

/-- The value of a packet. -/
def ofRouted (routed : Routed) : Value :=
  object packetNames [.text (some routed.client.text), .natural routed.character.toNat,
    ofMessage routed.message]

/-- The message of a value. -/
def message? (value : Value) : Option Message :=
  match value.record? messageNames with
  | some [kind, size, sequence, data] => do
    let kind ← kind.below? UInt16.size
    let size ← size.below? UInt16.size
    let sequence ← sequence.below? UInt16.size
    let data ← (← data.list?).mapM fun b => b.below? UInt8.size
    return ⟨kind.toUInt16, size.toUInt16, sequence.toUInt16, data.map (·.toUInt8)⟩
  | _ => none

/-- The packet of a value. -/
def routed? (value : Value) : Option Routed :=
  match value.record? packetNames with
  | some [client, character, message] => do
    let client ← Address.ofText? (← client.text?)
    let character ← character.below? UInt32.size
    let message ← message? message
    return ⟨client, character.toUInt32, message⟩
  | _ => none

/-- The JSON text of a packet. -/
def encode (routed : Routed) : Bytes := Utf8.encode (write (ofRouted routed))

/-- The packet that a JSON text spells. -/
def decode? (data : Bytes) : Option Routed := (read? data).bind routed?

end Record

end Bus

end ZoneRelay
