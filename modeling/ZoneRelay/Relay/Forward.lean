import ZoneRelay.Relay.Arrival
import ZoneRelay.Relay.Outlets

/-!
# Forwarding what arrived

When a datagram was accepted its sub-packets are published in order; those that the bus does
not take are lost, and counted. If the datagram asks for the last one to be sent again, that
is done first, **and nothing is published if it fails**.
-/

namespace ZoneRelay

namespace Relay

variable {m : Type → Type} [Monad m] (outlets : Outlets m)

/-- Publishes packets in order. Gives how many the bus took and how many not. -/
def publishAll : List Bus.Routed → m (Nat × Nat)
  | [] => return (0, 0)
  | routed :: rest => do
    let result ← outlets.publish routed
    let (taken, lost) ← publishAll rest
    return match result with
      | .ok _ => (taken + 1, lost)
      | .error _ => (taken, lost + 1)

/-- The packets that an accepted datagram is published as. -/
def routedOf (arrival : Arrival) : List Bus.Routed :=
  arrival.receipt.packets.map (Bus.Routed.ofSubPacket arrival.client arrival.character)

/-- Counts what came of publishing the packets of a datagram. -/
def noteForward (relay : Relay) (arrival : Arrival) (taken lost : Nat) : Relay :=
  let relay :=
    if arrival.receipt.kind = .opened .previous then relay.count (·.previousKeyDecrypt) else relay
  relay.count fun metrics =>
    { metrics with busErrors := metrics.busErrors + lost.toUInt64 }.subPackets taken.toUInt64
      arrival.receipt.skipped.toUInt64

/-- Publishes the packets of an accepted datagram. Gives how many the bus took. -/
def forward (relay : Relay) (arrival : Arrival) : m (Nat × Relay) := do
  let (taken, lost) ← publishAll outlets (routedOf arrival)
  return (taken, relay.noteForward arrival taken lost)

/-- Writes a datagram to a client and counts it if it is taken. -/
def write (relay : Relay) (client : Address) (bytes : Bytes) :
    m (Except Fault Unit × Relay) := do
  match ← outlets.send client bytes with
  | .ok _ => return (.ok (), relay.count (·.datagramSent bytes.length.toUInt64))
  | .error reason => return (.error (.io reason), relay)

/-- Handles a datagram. Gives how many of its sub-packets the bus took. -/
def handle (relay : Relay) (clock : Clock) (client : Address) (datagram : Bytes) :
    m (Except Fault Nat × Relay) := do
  match relay.accept clock client datagram with
  | (.error fault, relay) => return (.error fault, relay)
  | (.ok arrival, relay) =>
    match arrival.receipt.resend with
    | none =>
      let (taken, relay) ← relay.forward outlets arrival
      return (.ok taken, relay)
    | some bytes =>
      match ← (relay.count (·.resend)).write outlets client bytes with
      | (.error fault, relay) => return (.error fault, relay)
      | (.ok _, relay) =>
        let (taken, relay) ← relay.forward outlets arrival
        return (.ok taken, relay)

/-- Handles a datagram as it is read from the socket, and counts it. -/
def receive (relay : Relay) (clock : Clock) (client : Address) (datagram : Bytes) : m Relay := do
  let relay := relay.count (·.datagramReceived datagram.length.toUInt64)
  match ← relay.handle outlets clock client datagram with
  | (.ok _, relay) => return relay
  | (.error fault, relay) => return relay.countFailure fault

end Relay

end ZoneRelay
