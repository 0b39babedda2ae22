import ZoneRelay.Proofs.Bus.Codec
import ZoneRelay.Proofs.Frame.Framing
import ZoneRelay.Proofs.Frame.Region
import ZoneRelay.Relay.Flush

/-!
# The echo of a worker

A worker that sends every packet back unchanged is the simplest worker there is, and what it sends
back reaches its client (`ZoneRelay.Relay.echo`). The way is that of any reply:

| stage | what is passed on | what could be lost |
|---|---|---|
| out of the region | a sub-packet | – |
| to the worker and back | a frame of the bus | the size is a word, the scope of an address is left out |
| into the queue | a sub-packet without a number | its type is cut, and it may fit in no frame |
| into a datagram | a frame | its length is a byte |

Nothing is, because the sub-packet came out of a region: **it was measured by the same rules** as it
is when it goes back (`ZoneRelay.Frame.RawPacket.Measured`). Only zeros may be added to its payload,
up to a multiple of four: a login request that took a ragged rest gets them.
-/

namespace ZoneRelay

open ZoneRelay.Frame

namespace Bus

/-- The size that a packet states is that of its data, if a word can state it. -/
theorem Routed.size_ofSubPacket (client : Address) (character : UInt32) {packet : SubPacket}
    (h : packet.payload.length < UInt16.size) :
    (Routed.ofSubPacket client character packet).message.size.toNat = packet.payload.length :=
  UInt16.toNat_ofNat_of_lt' h

/-- A sub-packet whose type has nine bits comes back without its number, and otherwise as it was. -/
theorem Routed.toSubPacket_ofSubPacket (client : Address) (character : UInt32)
    {packet : SubPacket} (h : packet.kind &&& typeMask = packet.kind) :
    (Routed.ofSubPacket client character packet).toSubPacket = packet.stamped 0 := by
  show SubPacket.make packet.kind packet.payload = packet.stamped 0
  rw [SubPacket.make, h]
  rfl

end Bus

namespace Relay

/-- A worker's packet that fits into a frame is put into its client's queue. -/
theorem enqueueRouted_fits {relay : Relay} {routed : Bus.Routed}
    (hsession : (relay.session? routed.client).isSome)
    (h : routed.toSubPacket.frameLength ≤ maxFrameSize) :
    relay.enqueueRouted routed = (.ok 1, { relay with
      queues := relay.queues.add relay.config.outbound.backlogLimit routed.client
        [routed.toSubPacket] }) := by
  obtain ⟨session, hsession⟩ := Option.isSome_iff_exists.mp hsession
  have hfits : [routed.toSubPacket].filter (fun packet => packet.frameLength ≤ maxFrameSize) =
      [routed.toSubPacket] := by
    rw [List.filter_cons, if_pos (decide_eq_true h)]
    rfl
  rw [enqueueRouted, enqueue, hsession]
  simp only [hfits, List.length_singleton]

/-- **The echo of a sub-packet**: what becomes of the packet that it left as when a worker sends it
back in some format. -/
structure Echoed (client : Address) (raw : RawPacket) (format : Bus.Format)
    (routed : Bus.Routed) : Prop where
  data_eq : routed.message.data = raw.payload
  /-- The packet states the length of its data. -/
  size_eq : routed.message.size.toNat = routed.message.data.length
  /-- It is read back from its frame, and with it the format. -/
  decodeFrame_eq : Bus.decodeFrame (Bus.encodeFrame format routed) = .ok (routed, format)
  /-- The type that came in goes back, and so does the payload. -/
  kind_eq : routed.toSubPacket.kind = raw.kind
  payload_eq : routed.toSubPacket.payload = raw.payload
  /-- Where the client has a session it is put into the client's queue, and not refused. -/
  enqueueRouted_eq : ∀ relay : Relay, (relay.session? client).isSome →
    relay.enqueueRouted routed = (.ok 1, { relay with
      queues := relay.queues.add relay.config.outbound.backlogLimit client [routed.toSubPacket] })
  /-- It is framed under any number. Taken apart again, up to where its region ends, it has the
  type that came in, that number, and the payload filled up with zeros to a multiple of four. -/
  reframed : ∀ sequence, ∃ frame, routed.toSubPacket.encode sequence = .ok frame ∧
    ∀ tail ending, front tail = .stop ending →
      ∃ again, demux (frame ++ tail) = ([again], ending) ∧ again.kind = raw.kind ∧
        again.sequence = sequence ∧ again.payload = raw.payload ++
          Bytes.zeros (Bytes.roundUp4 raw.payload.length - raw.payload.length)

/-- **What a worker echoes comes back to its client**, for every sub-packet of any region, any
client whose address has no scope, any character and both formats. -/
theorem echo {region : Bytes} {raw : RawPacket} (hraw : raw ∈ (demux region).1)
    {client : Address} (hclient : client.Unscoped) (character : UInt32) (format : Bus.Format) :
    Echoed client raw format (Bus.Routed.ofSubPacket client character raw.toSubPacket) := by
  have hmeasured := measured_of_mem_demux hraw
  have hshort : raw.payload.length ≤ 504 := hmeasured.length_payload_le
  have hback : (Bus.Routed.ofSubPacket client character raw.toSubPacket).toSubPacket =
      raw.toSubPacket.stamped 0 :=
    Bus.Routed.toSubPacket_ofSubPacket client character hmeasured.kind_masked
  have hfits : (raw.toSubPacket.stamped 0).frameLength ≤ maxFrameSize :=
    SubPacket.frameLength_le hshort
  refine ⟨rfl, ?_, ?_, ?_, ?_, ?_, ?_⟩
  · exact Bus.Routed.size_ofSubPacket client character (Nat.lt_of_le_of_lt hshort (by decide))
  · exact Bus.decodeFrame_encodeFrame hclient (Nat.lt_of_le_of_lt hshort (by decide)) format
  · rw [hback]
    rfl
  · rw [hback]
    rfl
  · intro relay hsession
    exact enqueueRouted_fits hsession (hback ▸ hfits)
  · intro sequence
    rw [hback]
    refine ⟨_, if_neg (Nat.not_lt.mpr hfits), ?_⟩
    intro tail ending htail
    refine ⟨_, SubPacket.demux_frame hfits sequence htail, hmeasured.kind_masked, rfl, ?_⟩
    exact SubPacket.drop_frame _ _

/-! ### A login request with a ragged rest -/

/-- A region that ends inside a login request, three bytes behind its header. -/
def raggedRegion : Bytes := [0x0A, 0x2E, 1, 0, 5, 6, 7]

/-- The login request of that region, with all the bytes that are there. -/
def raggedLogin : RawPacket := ⟨loginType, 1, raggedRegion⟩

theorem demux_raggedRegion : demux raggedRegion = ([raggedLogin], .complete) := by
  have hfront : front raggedRegion = .packet raggedLogin := by decide
  have hrest : front (raggedRegion.drop raggedLogin.bytes.length) = .stop .complete := rfl
  rw [demux_packet hfront, demux_stop hrest]

/-- A client of this machine. -/
def loopback : Address := .v6 #v[0, 0, 0, 0, 0, 0, 0, 1] 0 5000

/-- A relay with a session for that client. -/
def echoingRelay (book : Code.Book) : Relay :=
  { Relay.start .standard book KeyStore.empty.provider with
    sessions := ⟨4096, [Session.start loopback 7 (.ofText "flat") 0], 1, 0⟩ }

/-- **The ragged login request comes back** with one zero behind it. -/
theorem echo_raggedLogin : ∃ routed frame again,
    raggedLogin ∈ (demux raggedRegion).1 ∧ loopback.Unscoped ∧
      Bus.Routed.ofSubPacket loopback 7 raggedLogin.toSubPacket = routed ∧
      routed.message.size = 3 ∧
      Bus.decodeFrame (Bus.encodeFrame .json routed) = .ok (routed, .json) ∧
      (∀ book, ((echoingRelay book).enqueueRouted routed).1 = .ok 1) ∧
      routed.toSubPacket.encode 9 = .ok frame ∧ demux frame = ([again], .complete) ∧
      again.kind = loginType ∧ again.sequence = 9 ∧ again.payload = [5, 6, 7, 0] := by
  have hraw : raggedLogin ∈ (demux raggedRegion).1 := by
    rw [demux_raggedRegion]
    exact List.mem_singleton_self _
  have hclient : loopback.Unscoped := rfl
  have hecho := echo hraw hclient 7 .json
  obtain ⟨frame, hencode, hdemux⟩ := hecho.reframed 9
  obtain ⟨again, hagain, hkind, hsequence, hpayload⟩ := hdemux [] .complete rfl
  refine ⟨_, frame, again, hraw, hclient, rfl, rfl, hecho.decodeFrame_eq, ?_, hencode, ?_, hkind,
    hsequence, hpayload⟩
  · intro book
    rw [hecho.enqueueRouted_eq (echoingRelay book) rfl]
  · rwa [List.append_nil] at hagain

end Relay

end ZoneRelay
