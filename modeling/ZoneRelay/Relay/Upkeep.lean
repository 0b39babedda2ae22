import ZoneRelay.Relay.Flush

/-!
# Upkeep of sessions

Signs of life to clients, and the ends of sessions: a session ends when it was idle for too
long or when its client is disconnected, and with it goes what waits for the client.
-/

namespace ZoneRelay

namespace Relay

/-- Ends the sessions that were idle for too long and are not `busy`. Gives how many. -/
def sweepExcept (relay : Relay) (clock : Clock) (busy : Address → Bool) : Nat × Relay :=
  let timeout := relay.config.session.idleTimeout
  let (gone, sessions) := relay.sessions.evictIdle clock.now timeout busy
  if gone.isEmpty then (0, relay)
  else
    let queues := relay.queues.removeAll gone
    (gone.length, { relay with sessions, queues }.count (·.evictions gone.length.toUInt64))

/-- Ends the sessions that were idle for too long, when nothing is being done for a client. -/
def sweep (relay : Relay) (clock : Clock) : Nat × Relay := relay.sweepExcept clock fun _ => false

/-- Ends the session of a client. Gives whether there was one. -/
def disconnect (relay : Relay) (client : Address) : Bool × Relay :=
  ((relay.session? client).isSome,
    { relay with sessions := relay.sessions.remove client, queues := relay.queues.remove client })

variable {m : Type → Type} [Monad m] (outlets : Outlets m)

/-- Sends a datagram without sub-packets to a client, so that it sees which of its own have
arrived. -/
def keepAlive (relay : Relay) (clock : Clock) (client : Address) :
    m (Except Fault Unit × Relay) := do
  match relay.session? client with
  | none => return (.error (.sessionNotFound client), relay)
  | some session =>
    match relay.assemble clock session [] with
    | (.error fault, relay) => return (.error fault, relay)
    | (.ok datagram, relay) => relay.write outlets client datagram.bytes

end Relay

end ZoneRelay
