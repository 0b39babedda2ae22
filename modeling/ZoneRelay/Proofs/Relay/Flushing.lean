import ZoneRelay.Proofs.Relay.World
import ZoneRelay.Relay.Flush

/-!
# Flushing in rounds

What waits for a client is sent in rounds, each of which packs one datagram from the front and
writes it. The rounds of a client are kept here as a relation (`ZoneRelay.Relay.Rounds`), with
one constructor for each way in which a round can go. **Only one of them goes on**
(`ZoneRelay.Relay.Rounds.taken`); the others end the rounds.

| a round | what waited | constructor |
|---|---|---|
| finds nothing | | `ZoneRelay.Relay.Rounds.emptied` |
| finds no session | is dropped | `ZoneRelay.Relay.Rounds.absent` |
| cannot pack a datagram | is dropped | `ZoneRelay.Relay.Rounds.unpacked` |
| packs nothing | is dropped | `ZoneRelay.Relay.Rounds.stalled` |
| cannot write the datagram | goes back, but for what is in it | `ZoneRelay.Relay.Rounds.refused` |
| writes the datagram | is for the next round, but for what is in it | `ZoneRelay.Relay.Rounds.taken` |

Flushing a client is such a sequence of rounds (`ZoneRelay.Relay.rounds_flushClient`), whatever
the world answers.
-/

namespace ZoneRelay

open ZoneRelay.Frame (SubPacket)

namespace Relay

open World

/-- Counts a change of key that came with a datagram. -/
def noteRotation (relay : Relay) (datagram : Session.Assembled) : Relay :=
  if datagram.rotated then relay.count (·.keyRotation) else relay

/-- Puts sub-packets back in front of a client's queue. -/
def putBack (relay : Relay) (client : Address) (packets : List SubPacket) : Relay :=
  { relay with
    queues := relay.queues.putBack relay.config.outbound.backlogLimit client packets }

/-- **The rounds of a client**: from a relay and a journal, with what waits, to how many
datagrams were taken, and the relay and the journal afterwards. -/
inductive Rounds (world : World) (clock : Clock) (client : Address) :
    Relay → Journal → List SubPacket → Nat → Relay → Journal → Prop
  /-- Nothing waits. -/
  | emptied (relay : Relay) (journal : Journal) :
    Rounds world clock client relay journal [] 0 relay journal
  /-- There is no session. -/
  | absent {relay : Relay} {packets : List SubPacket} (journal : Journal)
    (hsession : relay.session? client = none) :
    Rounds world clock client relay journal packets 0 relay journal
  /-- No datagram could be packed. -/
  | unpacked {relay after : Relay} {packets : List SubPacket} {session : Session} {fault : Fault}
    (journal : Journal) (hpackets : packets ≠ [])
    (hsession : relay.session? client = some session)
    (hassemble : relay.assemble clock session packets = (.error fault, after)) :
    Rounds world clock client relay journal packets 0 after journal
  /-- The datagram holds nothing that waits. -/
  | stalled {relay after : Relay} {packets : List SubPacket} {session : Session}
    {datagram : Session.Assembled} (journal : Journal) (hpackets : packets ≠ [])
    (hsession : relay.session? client = some session)
    (hassemble : relay.assemble clock session packets = (.ok datagram, after))
    (hconsumed : datagram.consumed = 0) :
    Rounds world clock client relay journal packets 0 after journal
  /-- The datagram could not be written. -/
  | refused {relay after : Relay} {packets : List SubPacket} {session : Session}
    {datagram : Session.Assembled} {journal : Journal} {reason : String} (hpackets : packets ≠ [])
    (hsession : relay.session? client = some session)
    (hassemble : relay.assemble clock session packets = (.ok datagram, after))
    (hconsumed : datagram.consumed ≠ 0)
    (hsend : world.send journal client datagram.bytes = .error reason) :
    Rounds world clock client relay journal packets 0
      ((after.noteRotation datagram).putBack client (packets.drop datagram.consumed))
      (journal ++ [.sent client datagram.bytes (.error reason)])
  /-- The datagram was written. -/
  | taken {relay after last : Relay} {packets : List SubPacket} {session : Session}
    {datagram : Session.Assembled} {journal journal' : Journal} {sent : Nat}
    (hpackets : packets ≠ []) (hsession : relay.session? client = some session)
    (hassemble : relay.assemble clock session packets = (.ok datagram, after))
    (hconsumed : datagram.consumed ≠ 0)
    (hsend : world.send journal client datagram.bytes = .ok ())
    (hrest : Rounds world clock client
      ((after.noteRotation datagram).count (·.datagramSent datagram.bytes.length.toUInt64))
      (journal ++ [.sent client datagram.bytes (.ok ())]) (packets.drop datagram.consumed) sent
      last journal') :
    Rounds world clock client relay journal packets (sent + 1) last journal'

/-- **Flushing a client goes in rounds.** -/
theorem rounds_flushClient (world : World) (clock : Clock) (client : Address) (relay : Relay)
    (packets : List SubPacket) (journal : Journal) :
    Rounds world clock client relay journal packets
      (perform (relay.flushClient world.outlets clock client packets) journal).1.1
      (perform (relay.flushClient world.outlets clock client packets) journal).1.2
      (perform (relay.flushClient world.outlets clock client packets) journal).2 := by
  induction hlength : packets.length using Nat.strongRecOn
    generalizing relay packets journal with
  | ind length ih =>
    rw [flushClient]
    by_cases hpackets : packets = []
    · rw [dif_pos hpackets, hpackets]
      exact Rounds.emptied relay journal
    · rw [dif_neg hpackets]
      rcases hsession : relay.session? client with _ | session
      · exact Rounds.absent journal hsession
      · rcases hassemble : relay.assemble clock session packets with ⟨fault | datagram, after⟩
        · simp only [hassemble]
          exact Rounds.unpacked journal hpackets hsession hassemble
        · simp only [hassemble]
          by_cases hconsumed : datagram.consumed = 0
          · rw [dif_pos hconsumed]
            exact Rounds.stalled journal hpackets hsession hassemble hconsumed
          · rw [dif_neg hconsumed, perform_bind, perform_write]
            rcases hsend : world.send journal client datagram.bytes with reason | ⟨⟨⟩⟩
            · simp only [noteSent]
              exact Rounds.refused hpackets hsession hassemble hconsumed hsend
            · have hshorter : (packets.drop datagram.consumed).length < length := by
                have := List.length_pos_iff.mpr hpackets
                rw [List.length_drop]
                omega
              exact Rounds.taken hpackets hsession hassemble hconsumed hsend
                (ih _ hshorter _ _ _ rfl)

/-! ### All clients -/

/-- A client without a session loses his queue. -/
theorem perform_flushAll_none (world : World) {relay : Relay} (clock : Clock) {client : Address}
    (hsession : relay.session? client = none) (packets : List SubPacket)
    (rest : List (Address × List SubPacket)) (journal : Journal) :
    perform (relay.flushAll world.outlets clock ((client, packets) :: rest)) journal =
      perform ({ relay with queues := relay.queues.remove client }.flushAll world.outlets clock
        rest) journal := by
  rw [flushAll, hsession]

/-- A client with one is flushed before the others. -/
theorem perform_flushAll_some (world : World) {relay after last : Relay} {clock : Clock}
    {client : Address} {packets : List SubPacket} {session : Session}
    (hsession : relay.session? client = some session)
    {rest : List (Address × List SubPacket)} {journal journal' journal'' : Journal}
    {sent others : Nat}
    (hclient : perform (relay.flushClient world.outlets clock client packets) journal =
      ((sent, after), journal'))
    (hrest : perform (after.flushAll world.outlets clock rest) journal' =
      ((others, last), journal'')) :
    perform (relay.flushAll world.outlets clock ((client, packets) :: rest)) journal =
      ((sent + others, last), journal'') := by
  rw [flushAll, hsession]
  simp only [perform_bind, hclient, hrest, perform_pure]

end Relay

end ZoneRelay
