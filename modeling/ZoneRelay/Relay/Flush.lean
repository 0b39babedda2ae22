import ZoneRelay.Relay.Forward

/-!
# Sending what waits

Sub-packets for a client that has a session are put into its queue
(`ZoneRelay.Relay.enqueue`); those that fit in no frame are refused. From time to time all
queues are emptied (`ZoneRelay.Relay.flush`): what waits for a client is packed into one
datagram after another. When a datagram cannot be written the sub-packets behind it go back
to the front of the queue; its own stay with the session, which sends it again when the
client misses it.

Every datagram takes at least one of the waiting sub-packets, so packing comes to an end.
-/

namespace ZoneRelay

open ZoneRelay.Frame (SubPacket)

namespace Relay

/-- Puts sub-packets into a client's queue. Gives how many were not refused. -/
def enqueue (relay : Relay) (client : Address) (packets : List SubPacket) :
    Except Fault Nat × Relay :=
  match relay.session? client with
  | none => (.error (.sessionNotFound client), relay)
  | some _ =>
    let fitting := packets.filter fun packet => packet.frameLength ≤ Frame.maxFrameSize
    let queues := relay.queues.add relay.config.outbound.backlogLimit client fitting
    (.ok fitting.length, { relay with queues })

/-- Puts a worker's packet into its client's queue. -/
def enqueueRouted (relay : Relay) (routed : Bus.Routed) : Except Fault Nat × Relay :=
  relay.enqueue routed.client [routed.toSubPacket]

/-- Takes a worker's reply from the bus. One that does not read as a packet is counted. -/
def takeReply (relay : Relay) (reply : Except Fault Bus.Routed) : Relay :=
  match reply with
  | .ok routed => (relay.enqueueRouted routed).2
  | .error _ => relay.count (·.busError)

/-- Packs waiting sub-packets of a client into a datagram; a change of key is counted. -/
def assemble (relay : Relay) (clock : Clock) (session : Session) (packets : List SubPacket) :
    Except Fault Session.Assembled × Relay :=
  let (result, session) :=
    session.assemble relay.book relay.packetLimit clock.timestamp packets
  (result, relay.store session)

variable {m : Type → Type} [Monad m] (outlets : Outlets m)

/-- Sends what waited for a client. Gives the number of datagrams that were taken. -/
def flushClient (relay : Relay) (clock : Clock) (client : Address) (packets : List SubPacket) :
    m (Nat × Relay) := do
  if _emptied : packets = [] then return (0, relay)
  else
    match relay.session? client with
    | none => return (0, relay)
    | some session =>
      match relay.assemble clock session packets with
      | (.error _, relay) => return (0, relay)
      | (.ok datagram, relay) =>
        if _stalled : datagram.consumed = 0 then return (0, relay)
        else
          let relay := if datagram.rotated then relay.count (·.keyRotation) else relay
          match ← relay.write outlets client datagram.bytes with
          | (.error _, relay) =>
            let limit := relay.config.outbound.backlogLimit
            let rest := packets.drop datagram.consumed
            return (0, { relay with queues := relay.queues.putBack limit client rest })
          | (.ok _, relay) =>
            let (sent, relay) ← flushClient relay clock client (packets.drop datagram.consumed)
            return (sent + 1, relay)
termination_by packets.length
decreasing_by
  have := List.length_pos_iff.2 _emptied
  simp only [List.length_drop]
  omega

/-- Sends what waited for some clients. What waited for a client without a session is
dropped, and so is its queue. -/
def flushAll (relay : Relay) (clock : Clock) :
    List (Address × List SubPacket) → m (Nat × Relay)
  | [] => return (0, relay)
  | (client, packets) :: rest => do
    match relay.session? client with
    | none => flushAll { relay with queues := relay.queues.remove client } clock rest
    | some _ =>
      let (sent, relay) ← relay.flushClient outlets clock client packets
      let (others, relay) ← flushAll relay clock rest
      return (sent + others, relay)

/-- Empties all queues. Gives the number of datagrams that were taken. -/
def flush (relay : Relay) (clock : Clock) : m (Nat × Relay) :=
  let (pending, queues) := relay.queues.drain
  { relay with queues }.flushAll outlets clock pending

end Relay

end ZoneRelay
