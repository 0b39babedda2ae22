import ZoneRelay.Proofs.Relay.History

/-!
# From a datagram to the bus

What an accepted datagram brought is to be published: each sub-packet once, in order, and each
counted, as taken by the bus, as refused by it, or as outside the window. That is what happens,
**unless the datagram asks for the last one to be sent again and the world refuses that one**
(`ZoneRelay.Relay.encrypted_delivered`). Then nothing is published and nothing is counted; but
the session has taken note of the datagram all the same, so that its repetition lies outside the
window, and what it brought is lost.

| | what is added up | theorem |
|---|---|---|
| the session | what it accepts and what it skips is all of a region | `exists_region` |
| the counters | what was taken, what was refused, and what was skipped | `accounted_noteForward` |

It does not take much for that to happen: a login and two signs of life that the client has not
seen (`ZoneRelay.Relay.accepted_but_lost`).
-/

namespace ZoneRelay

open ZoneRelay.Frame

/-! ### The region of a datagram -/

namespace Session

/-- The decompressed region of a datagram, if it opens and can be decompressed. -/
def region? (book : Code.Book) (pool : BufferPool) (session : Session) (datagram : Bytes) :
    Option Bytes :=
  match session.decrypt datagram with
  | (.ok (_, clear), _) =>
    match openRegion book pool clear with
    | (.ok (_, region), _) => some region
    | (.error _, _) => none
  | (.error _, _) => none

/-- **Every sub-packet of a region is accounted for**: it is among those that were accepted, or
it is counted with the others. -/
theorem length_receipt (session : Session) (header : Header) (kind : Kind) (region : Bytes)
    (resend : Option Bytes) :
    (session.receipt header kind region resend).packets.length +
      (session.receipt header kind region resend).skipped = (demux region).1.length := by
  rw [receipt, harvest_eq]
  simp only [List.length_map]
  exact (List.length_eq_length_filter_add _).symm

/-- A datagram that was received has a region, and its sub-packets are accounted for. -/
theorem exists_region {book : Code.Book} {pool : BufferPool} {session : Session} {now : Instant}
    {datagram : Bytes} {receipt : Receipt}
    (h : (session.receive book pool now datagram).1 = .ok receipt) :
    ∃ region, session.region? book pool datagram = some region ∧
      receipt.packets.length + receipt.skipped = (demux region).1.length := by
  by_cases hshort : datagram.length < headerSize + checksumSize + 1
  · rw [receive] at h
    simp only [if_pos hshort] at h
    cases h
  · rcases hdecrypt : session.decrypt datagram with ⟨fault | ⟨opening, clear⟩, opened⟩
    · rw [receive] at h
      simp only [if_neg hshort, hdecrypt] at h
      cases h
    · rcases hopen : openRegion book pool clear with ⟨fault | ⟨header, region⟩, pool'⟩
      · rw [receive] at h
        simp only [if_neg hshort, hdecrypt, hopen] at h
        cases h
      · rw [receive_eq_ok now (Nat.le_of_not_lt hshort) hdecrypt hopen] at h
        cases h
        refine ⟨region, ?_, opened.length_receipt header _ region _⟩
        rw [region?, hdecrypt]
        simp only [hopen]

end Session

namespace Relay

open World

variable {world : World} {relay : Relay} {client : Address}

/-! ### What is counted -/

/-- Publishing counts what the bus took, what it did not take, and what was skipped. -/
theorem metrics_noteForward (relay : Relay) (arrival : Arrival) (taken lost : Nat) :
    (relay.noteForward arrival taken lost).metrics.subPacketsForwarded =
        relay.metrics.subPacketsForwarded + UInt64.ofNat taken ∧
      (relay.noteForward arrival taken lost).metrics.busErrors =
        relay.metrics.busErrors + UInt64.ofNat lost ∧
      (relay.noteForward arrival taken lost).metrics.subPacketsSkipped =
        relay.metrics.subPacketsSkipped + UInt64.ofNat arrival.receipt.skipped := by
  rw [noteForward]
  split <;> exact ⟨rfl, rfl, rfl⟩

/-- How much the three counters of sub-packets have grown: forwarded, refused by the bus, and
skipped. -/
def accounted (before after : Relay) : UInt64 :=
  (after.metrics.subPacketsForwarded - before.metrics.subPacketsForwarded) +
    (after.metrics.busErrors - before.metrics.busErrors) +
    (after.metrics.subPacketsSkipped - before.metrics.subPacketsSkipped)

/-- **Publishing accounts for every sub-packet.** -/
theorem accounted_noteForward {ready : Relay}
    (hready : ready.metrics.subPacketsForwarded = relay.metrics.subPacketsForwarded ∧
      ready.metrics.busErrors = relay.metrics.busErrors ∧
      ready.metrics.subPacketsSkipped = relay.metrics.subPacketsSkipped)
    (arrival : Arrival) (taken lost : Nat) :
    relay.accounted (ready.noteForward arrival taken lost) =
      UInt64.ofNat (taken + lost + arrival.receipt.skipped) := by
  obtain ⟨hforwarded, herrors, hskipped⟩ := metrics_noteForward ready arrival taken lost
  obtain ⟨hforwarded', herrors', hskipped'⟩ := hready
  have hgrowth : ∀ a b : UInt64, a + b - a = b := by
    intro a b
    rw [UInt64.add_comm, UInt64.add_sub_cancel]
  rw [accounted, hforwarded, herrors, hskipped, hforwarded', herrors', hskipped', hgrowth, hgrowth,
    hgrowth, UInt64.ofNat_add, UInt64.ofNat_add]

/-- A refused resend accounts for none. -/
theorem accounted_resend {after : Relay} (hmetrics : after.metrics = relay.metrics) :
    relay.accounted (after.count (·.resend)) = 0 := by
  rw [accounted, count, hmetrics]
  simp [Metrics.resend]

/-! ### Encrypted datagrams -/

/-- **An accepted encrypted datagram is delivered unless a resend is refused.** Take any relay
and any client with a session, and an encrypted datagram that the session receives. In any world,
if the datagram does not ask for the last one again or that one can be written, every sub-packet
that was accepted is offered to the bus exactly once and in order, and what is forwarded, refused
by the bus and skipped adds up to the sub-packets of the datagram's region. If it cannot be
written, nothing is offered and none of the three is counted, while the session moves on. -/
theorem encrypted_delivered (world : World) (journal : Journal) (relay : Relay) (clock : Clock)
    (client : Address) (datagram : Bytes) {session : Session} {receipt : Session.Receipt}
    (hsession : relay.session? client = some session) (hclear : Login.parse? datagram = .ok none)
    (hreceipt : (session.receive relay.book relay.scratch clock.now datagram).1 = .ok receipt) :
    ∃ result after effects region,
      perform (relay.handle world.outlets clock client datagram) journal =
        ((result, after), journal ++ effects) ∧
      session.region? relay.book relay.scratch datagram = some region ∧
      (¬ Refused world journal client receipt.resend →
        effects.filterMap Effect.offered? =
            receipt.packets.map (.ofSubPacket client session.character) ∧
          relay.accounted after = UInt64.ofNat (demux region).1.length) ∧
      (Refused world journal client receipt.resend →
        effects.filterMap Effect.offered? = [] ∧ relay.accounted after = 0 ∧
          after.session? client =
            some (session.receive relay.book relay.scratch clock.now datagram).2.1) := by
  obtain ⟨region, hregion, htotal⟩ := Session.exists_region hreceipt
  obtain ⟨after, haccept, hmetrics, hafter⟩ := accept_eq_ok hsession hclear hreceipt
  by_cases hrefused : Refused world journal client receipt.resend
  · obtain ⟨bytes, reason, hresend, hsend⟩ := hrefused
    have hhandle := perform_handle_refused haccept hresend hsend
    exact ⟨_, _, _, region, hhandle, hregion,
      fun hnot => absurd ⟨bytes, reason, hresend, hsend⟩ hnot,
      fun _ => ⟨rfl, accounted_resend hmetrics, hafter⟩⟩
  · obtain ⟨resent, ready, results, hresent, hready, hlength, hhandle⟩ :=
      perform_handle_ok haccept hrefused
    refine ⟨_, _, _, region, hhandle, hregion, fun _ => ⟨?_, ?_⟩, fun hyes => absurd hyes hrefused⟩
    · rw [List.filterMap_append, hresent, List.nil_append]
      exact filterMap_offered hlength
    · have hcounts : results.countP (·.isOk) + results.countP (fun result => !result.isOk) =
          receipt.packets.length := by
        have hsplit := List.length_eq_countP_add_countP (fun result => result.isOk) (l := results)
        rw [hlength, routedOf, List.length_map] at hsplit
        simpa using hsplit.symm
      rw [accounted_noteForward ?_, hcounts, htotal]
      rcases hready with rfl | ⟨size, rfl⟩ <;>
        simp [count, hmetrics, Metrics.resend, Metrics.datagramSent]

/-! ### A client that has missed a sign of life -/

/-- **A sign of life for a client with a session** is a datagram without sub-packets, whether the
world takes it or not: its session notes the datagram, and nothing else of the relay changes but
a counter. -/
theorem exists_keepAlive {state : State}
    (hcodes : ∀ b, (state.relay.book.encoder.entry b).bits ≤ 32) (world : World) (clock : Clock)
    {client : Address} {session : Session} (hsession : state.relay.session? client = some session) :
    ∃ bytes metrics,
      (step world state (.keepAlive clock client)).after.relay =
        { state.relay.store (session.recordSent bytes) with metrics } ∧
      (step world state (.keepAlive clock client)).after.relay.session? client =
        some (session.recordSent bytes) := by
  obtain ⟨clear, count, bytes, zone, -, -, -, -, hzone, hassemble⟩ :=
    Session.assemble_eq hcodes state.relay.packetLimit session clock.timestamp
      (nofun : ∀ packet ∈ ([] : List SubPacket), packet.frameLength ≤ maxFrameSize)
  have hpack : state.relay.assemble clock session [] =
      (.ok ⟨bytes, session.serverSequence, count, zone⟩,
        state.relay.store (session.recordSent bytes)) := by
    rw [Relay.assemble, hassemble, hzone, List.take_nil]
    rfl
  have haddress : session.address = client := SessionTable.address_of_get? hsession
  have hstored := @session?_store state.relay client session (session.recordSent bytes) hsession
    haddress client
  rw [if_pos rfl] at hstored
  rw [step, Op.apply, perform_bind]
  simp only [keepAlive, hsession, hpack, perform_write]
  rcases world.send state.journal client bytes with reason | taken
  · exact ⟨bytes, _, rfl, hstored⟩
  · exact ⟨bytes, _, rfl, hstored⟩

/-- **Of two signs of life the session keeps the second**, which is asked for by a client that has
not seen it. -/
theorem exists_keepAlive_twice {state : State}
    (hcodes : ∀ b, (state.relay.book.encoder.entry b).bits ≤ 32) (world : World)
    (clock later : Clock) {client : Address} {session : Session}
    (hsession : state.relay.session? client = some session)
    (hserver : session.serverSequence = 0) :
    ∃ after bytes,
      (run world state [.keepAlive clock client, .keepAlive later client]).relay.session? client =
        some after ∧
      after.current = session.current ∧ after.character = session.character ∧
      after.clientSequence = session.clientSequence ∧ after.resendFor 0 = some bytes ∧
      (run world state [.keepAlive clock client, .keepAlive later client]).relay.scratch =
        state.relay.scratch := by
  rw [run_cons, run_cons]
  obtain ⟨first, metrics, hfirst, hnoted⟩ := exists_keepAlive hcodes world clock hsession
  generalize (step world state (.keepAlive clock client)).after = between at hfirst hnoted ⊢
  have hcodes' : ∀ b, (between.relay.book.encoder.entry b).bits ≤ 32 := by
    rw [hfirst]
    exact hcodes
  obtain ⟨second, metrics', hsecond, hlast⟩ := exists_keepAlive hcodes' world later hnoted
  have hscratch : (step world between (.keepAlive later client)).after.relay.scratch =
      state.relay.scratch := by
    rw [hsecond]
    change between.relay.scratch = state.relay.scratch
    rw [hfirst]
    rfl
  have hlate : (0 : UInt16) < session.serverSequence + 1 := by
    rw [hserver]
    decide
  exact ⟨_, second, hlast, rfl, rfl, rfl,
    by simp [Session.resendFor, Session.recordSent, Option.filter, hlate], hscratch⟩

/-- A client logs in and is sent two signs of life. -/
def unanswered : State :=
  run (answering (.ok ())) (entered [7])
    [.keepAlive ⟨1, 0⟩ (.v4 127 0 0 1 5000), .keepAlive ⟨2, 0⟩ (.v4 127 0 0 1 5000)]

/-- The client has seen neither, and its session keeps the second. -/
theorem session?_unanswered : ∃ session bytes,
    unanswered.relay.session? (.v4 127 0 0 1 5000) = some session ∧
      session.current = .ofKey (.ofText "secret") ∧ session.character = 7 ∧
      session.clientSequence = 1 ∧ session.resendFor 0 = some bytes ∧
      unanswered.relay.scratch.size = maxDatagramSize := by
  obtain ⟨held, hheld, hcurrent, hcharacter, hclient, hserver⟩ := session?_entered
  have hsize : (entered [7]).relay.scratch.size = maxDatagramSize := by decide +kernel
  have hcodes : ∀ b, ((entered [7]).relay.book.encoder.entry b).bits ≤ 32 := by
    rw [entered, newcomer, book_run]
    exact (loaded_bookOf .standard).bits_le
  obtain ⟨session, bytes, hsession, hcurrent', hcharacter', hclient', hresend, hscratch⟩ :=
    exists_keepAlive_twice hcodes (answering (.ok ())) ⟨1, 0⟩ ⟨2, 0⟩ hheld hserver
  rw [unanswered, hscratch]
  exact ⟨session, bytes, hsession, hcurrent'.trans hcurrent, hcharacter'.trans hcharacter,
    hclient'.trans hclient, hresend, hsize⟩

/-- Of such a client the relay accepts a datagram with its sub-packet and with the request to
resend. -/
theorem receive_unanswered : ∃ session receipt bytes,
    unanswered.relay.session? (.v4 127 0 0 1 5000) = some session ∧ session.character = 7 ∧
      Login.parse? Session.secretDatagram = .ok none ∧
      (session.receive unanswered.relay.book unanswered.relay.scratch 5
        Session.secretDatagram).1 = .ok receipt ∧
      receipt.packets = [⟨0x15, 2, [1, 2, 3, 4]⟩] ∧ receipt.resend = some bytes := by
  obtain ⟨session, bytes, hsession, hcurrent, hcharacter, hclient, hresend, hscratch⟩ :=
    session?_unanswered
  have hbook : Code.Lengths.standard.book = .ok unanswered.relay.book := by
    rw [unanswered, run_entered, newcomer, book_run]
    exact book_eq_bookOf .standard
  have hclear : verifyChecksum Session.secretDatagram = false := by decide +kernel
  have hforwards : session.forwards ⟨2, 0, 0⟩ ⟨0x15, 2, [1, 2, 3, 4]⟩ = true := by
    rw [Session.forwards, hclient]
    decide
  have hdelivered : [SubPacket.mk 0x15 2 [1, 2, 3, 4]].map (·.delivered) =
      [⟨0x15, 2, [1, 2, 3, 4]⟩] := by decide
  refine ⟨session, _, bytes, hsession, hcharacter, by rw [Login.parse?, hclear]; rfl,
    Session.receive_secret hbook hscratch hcurrent 5, ?_, hresend⟩
  rw [Session.receiptOf, Session.forwarded, hdelivered, List.filter_singleton, hforwards]
  rfl

/-- Where that one is taken, the sub-packet is offered and counted. -/
theorem encrypted_delivered_taken : ∃ session effects result after,
    Reachable unanswered.relay ∧
    unanswered.relay.session? (.v4 127 0 0 1 5000) = some session ∧
    perform (unanswered.relay.handle (answering (.ok ())).outlets ⟨5, 0⟩ (.v4 127 0 0 1 5000)
      Session.secretDatagram) [] = ((result, after), effects) ∧
    effects.filterMap Effect.offered? =
      [.ofSubPacket (.v4 127 0 0 1 5000) 7 ⟨0x15, 2, [1, 2, 3, 4]⟩] ∧
    ∃ region, session.region? unanswered.relay.book unanswered.relay.scratch
        Session.secretDatagram = some region ∧
      unanswered.relay.accounted after = UInt64.ofNat (demux region).1.length := by
  obtain ⟨session, receipt, bytes, hsession, hcharacter, hclear, hreceive, hpackets, -⟩ :=
    receive_unanswered
  obtain ⟨result, after, effects, region, hperform, hregion, hdelivered, -⟩ :=
    encrypted_delivered (answering (.ok ())) [] unanswered.relay ⟨5, 0⟩ (.v4 127 0 0 1 5000)
      Session.secretDatagram hsession hclear hreceive
  obtain ⟨hoffered, haccounted⟩ := hdelivered (by rintro ⟨bytes, reason, -, hsend⟩; cases hsend)
  rw [hpackets, hcharacter] at hoffered
  exact ⟨session, effects, result, after, reachable_entered [7] _, hsession, hperform, hoffered,
    region, hregion, haccounted⟩

/-- **Where it is refused, the sub-packet is lost**: the datagram is accepted with it, but nothing
is offered and nothing is counted. -/
theorem accepted_but_lost : ∃ session receipt effects after,
    Reachable unanswered.relay ∧
    unanswered.relay.session? (.v4 127 0 0 1 5000) = some session ∧
    Login.parse? Session.secretDatagram = .ok none ∧
    (session.receive unanswered.relay.book unanswered.relay.scratch 5
      Session.secretDatagram).1 = .ok receipt ∧
    receipt.packets = [⟨0x15, 2, [1, 2, 3, 4]⟩] ∧
    perform (unanswered.relay.handle (answering (.error "refused")).outlets ⟨5, 0⟩
      (.v4 127 0 0 1 5000) Session.secretDatagram) [] =
        ((.error (.io "refused"), after), effects) ∧
    effects.filterMap Effect.offered? = [] ∧ unanswered.relay.accounted after = 0 := by
  obtain ⟨session, receipt, bytes, hsession, -, hclear, hreceive, hpackets, hresend⟩ :=
    receive_unanswered
  obtain ⟨after, haccept, hmetrics, -⟩ :=
    @accept_eq_ok unanswered.relay ⟨5, 0⟩ (.v4 127 0 0 1 5000) Session.secretDatagram session
      receipt hsession hclear hreceive
  have hrefused : (answering (.error "refused")).send [] (.v4 127 0 0 1 5000) bytes =
      .error "refused" := rfl
  have hperform := perform_handle_refused haccept hresend hrefused
  exact ⟨session, receipt, _, _, reachable_entered [7] _, hsession, hclear, hreceive, hpackets,
    hperform, rfl, accounted_resend hmetrics⟩

end Relay

end ZoneRelay
