import ZoneRelay.Bus.Channel

/-!
# The ways out

The relay acts on the world in two ways only: it writes datagrams to clients and publishes
packets on the bus. Either may fail. What happens then is up to the relay, so the ways out
are given to it as functions of any monad (`ZoneRelay.Outlets`).

`ZoneRelay.Outlets.recorded` keeps the bus in the process and the datagrams in a record, and
refuses those that it is told to refuse.
-/

namespace ZoneRelay

/-- How datagrams and packets leave the relay. -/
structure Outlets (m : Type → Type) where
  /-- Writes a datagram to a client, or says why the operating system refused it. -/
  send : Address → Bytes → m (Except String Unit)
  /-- Publishes a packet on the bus. -/
  publish : Bus.Routed → m (Except Fault Unit)

/-- A bus in the process and the datagrams written so far, oldest first. -/
structure Wire where
  channel : Bus.Channel
  sent : List (Address × Bytes)

namespace Outlets

/-- Datagrams are recorded unless `refused` gives a reason; packets go to the bus in the
process. -/
def recorded (refused : Address → Option String) : Outlets (StateM Wire) where
  send client bytes :=
    match refused client with
    | some reason => pure (.error reason)
    | none => modifyGet fun wire => (.ok (), { wire with sent := wire.sent ++ [(client, bytes)] })
  publish routed :=
    modifyGet fun wire =>
      let (result, channel) := wire.channel.publish routed
      (result, { wire with channel })

end Outlets

end ZoneRelay
