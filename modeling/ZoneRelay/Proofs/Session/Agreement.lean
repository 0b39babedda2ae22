import ZoneRelay.Proofs.Code.Layout
import ZoneRelay.Proofs.Session.Packing

/-!
# The client can read every datagram

Relay and client change their keys on their own: the relay when it has packed a zone packet,
the client when it has read one. **They never lose each other**: along any run in which
nothing but packing changes the session's key, a client that starts with the same key and gets
the datagrams in order reads every one of them, and finds in it what was packed
(`ZoneRelay.Session.client_reads_every_datagram`).

The invariant is that the session's cipher is the one of the client's key. Packing enciphers
under the key before the change, and the client deciphers before it changes its own; what
either then looks at to decide is the same list of types. All other operations of the run
leave the cipher alone.
-/

namespace ZoneRelay

namespace Session

open ZoneRelay.Frame

/-! ### What is sent and what arrives -/

/-- **An operation in the ordinary course of a session**: what is packed are new sub-packets
that fit into a frame, and the key is not changed but by packing. -/
def Op.Ordinary : Op → Prop
  | assemble _ _ waiting => ∀ packet ∈ waiting, ∃ kind payload,
      packet = SubPacket.make kind payload ∧ payload.length ≤ 504
  | rotateKey => False
  | _ => True

/-- One call to pack a datagram: the session before it, what it was given, and its result. -/
structure Transmission where
  sender : Session
  limit : Nat
  timestamp : UInt32
  waiting : List SubPacket
  result : Except Fault Assembled

/-- The call to pack a datagram, if a step is one. -/
def Step.transmission? (step : Step) : Option Transmission :=
  match step.op, step.outcome with
  | .assemble limit timestamp waiting, .assembled result =>
    some ⟨step.before, limit, timestamp, waiting, result⟩
  | _, _ => none

/-- The calls of a run to pack a datagram, in order. -/
def transmissions (book : Code.Book) (session : Session) (ops : List Op) : List Transmission :=
  (trace book session ops).filterMap (·.transmission?)

/-- The datagram, if there is one. -/
def Transmission.bytes? (sent : Transmission) : Option Bytes :=
  match sent.result with
  | .ok assembled => some assembled.bytes
  | .error _ => none

/-- The datagrams of a run, in order. -/
def datagrams (book : Code.Book) (session : Session) (ops : List Op) : List Bytes :=
  (transmissions book session ops).filterMap (·.bytes?)

/-- **What was packed is read**: a datagram of at most 4096 bytes with the first of the waiting
sub-packets – at least one if there was one – and nothing else. -/
structure Transmission.ReadAs (sent : Transmission) (assembled : Assembled)
    (reading : Client.Reading) : Prop where
  consumed_le : assembled.consumed ≤ min sent.waiting.length sent.limit
  consumed_pos : sent.waiting ≠ [] → 0 < sent.limit → 0 < assembled.consumed
  length_le : assembled.bytes.length ≤ maxDatagramSize
  header : reading.header =
    ⟨sent.sender.serverSequence, sent.sender.clientSequence, sent.timestamp⟩
  region : reading.region =
    region (leading sent.sender.serverSequence sent.waiting assembled.consumed) ++ [0]
  packets : reading.packets = (sent.waiting.take assembled.consumed).map fun packet =>
    ⟨packet.kind, sent.sender.serverSequence, packet.padded⟩
  ending : reading.ending = .complete
  rotated : assembled.rotated = reading.packets.any (·.kind == zoneType)

/-- **A transmission arrives**: there is a datagram, the client can read it, and it reads what
was packed. -/
def Transmission.Arrives (sent : Transmission) (read : Except Fault Client.Reading) : Prop :=
  ∃ assembled reading, sent.result = .ok assembled ∧ read = .ok reading ∧
    sent.ReadAs assembled reading

/-! ### One datagram -/

/-- A new sub-packet's type is not cut again. -/
theorem delivered_make (kind : UInt16) (payload : Bytes) (sequence : UInt16) :
    ((SubPacket.make kind payload).stamped sequence).delivered =
      ⟨(SubPacket.make kind payload).kind, sequence, (SubPacket.make kind payload).padded⟩ := by
  have hkind : kind &&& typeMask &&& typeMask = kind &&& typeMask := by
    rw [UInt16.and_assoc, UInt16.and_self]
  rw [SubPacket.delivered, SubPacket.stamped, SubPacket.make, hkind]
  rfl

/-- **One datagram arrives**, at a client with the session's key, and both go on to the same
key. -/
theorem assemble_arrives {book : Code.Book} (hbook : book.Faithful)
    (hcodes : ∀ b, (book.encoder.entry b).bits ≤ 32) {session : Session} {key : Cipher.Key}
    (hkey : session.current = .ofKey key) (limit : Nat) (timestamp : UInt32)
    {waiting : List SubPacket}
    (hwaiting : (Op.assemble limit timestamp waiting).Ordinary) :
    ∃ assembled reading after,
      session.assemble book limit timestamp waiting = (.ok assembled, after) ∧
      Client.read book key assembled.bytes = .ok reading ∧
      Transmission.ReadAs ⟨session, limit, timestamp, waiting, .ok assembled⟩ assembled
        reading ∧
      after.current = .ofKey (Client.nextKey key (.ok reading)) := by
  have hshort : ∀ packet ∈ waiting, packet.frameLength ≤ maxFrameSize := by
    intro packet hmem
    obtain ⟨kind, payload, rfl, hpayload⟩ := hwaiting packet hmem
    exact SubPacket.frameLength_le hpayload
  obtain ⟨clear, count, bytes, zone, hpacked, hcount, hpos, hbytes, hzone, hassemble⟩ :=
    assemble_eq hcodes limit session timestamp hshort
  have hread : Client.read book key bytes = .ok (.of (session.nextHeader timestamp)
      (region (leading session.serverSequence waiting count) ++ [0])) := by
    have hroom := hpacked.length_region_lt
    rw [hbytes, hkey]
    refine hpacked.carries.read_encryptPacket hbook ?_ key
    rw [List.length_append, List.length_singleton]
    omega
  have hfirst : ∀ packet ∈ waiting.take count, packet.frameLength ≤ maxFrameSize :=
    fun packet hmem => hshort packet (List.mem_of_mem_take hmem)
  have hdemux := demux_region
    (frameLength_le_of_mem_leading session.serverSequence count hfirst) front_zero
  have hpackets : ((leading session.serverSequence waiting count).map SubPacket.raw).map
      (·.toSubPacket) = (waiting.take count).map fun packet =>
        ⟨packet.kind, session.serverSequence, packet.padded⟩ := by
    rw [leading, List.map_map, List.map_map]
    refine List.map_congr_left fun packet hmem => ?_
    obtain ⟨kind, payload, rfl, -⟩ := hwaiting packet (List.mem_of_mem_take hmem)
    exact (SubPacket.toSubPacket_raw _).trans (delivered_make kind payload _)
  have hrotated : zone = ((waiting.take count).map fun packet : SubPacket =>
      (⟨packet.kind, session.serverSequence, packet.padded⟩ : SubPacket)).any
        (·.kind == zoneType) := by
    rw [hzone, List.any_map]
    rfl
  rw [Client.Reading.of, hdemux, hpackets] at hread
  refine ⟨_, _, _, hassemble, hread, ?_, ?_⟩
  · refine ⟨?_, hpos, ?_, rfl, rfl, rfl, rfl, hrotated⟩
    · exact Nat.le_min.mpr ⟨hpacked.count_le, hcount⟩
    · rw [hbytes, Cipher.Schedule.length_encryptPacket]
      exact hpacked.length_le
  · -- both look at the same types, the relay at what it packed, the client at what it read
    simp only [Client.nextKey, ← hrotated]
    split
    · rw [current_rotateKey, current_recordSent, hkey]
      rfl
    · rw [current_recordSent, hkey]

/-! ### Runs -/

/-- **Along a run every datagram arrives**, at a client that starts with the session's key, and
at its end both have the same key again. -/
theorem run_arrives {book : Code.Book} (hbook : book.Faithful)
    (hcodes : ∀ b, (book.encoder.entry b).bits ≤ 32) {session : Session} {key : Cipher.Key}
    (hkey : session.current = .ofKey key) {ops : List Op} (hops : ∀ op ∈ ops, op.Ordinary) :
    List.Forall₂ Transmission.Arrives (transmissions book session ops)
        (Client.listen book key (datagrams book session ops)) ∧
      (session.run book ops).current =
        .ofKey (Client.keyAfter book key (datagrams book session ops)) := by
  induction ops generalizing session key with
  | nil => exact ⟨.nil, hkey⟩
  | cons op rest ih =>
    have hop := hops op List.mem_cons_self
    have hrest : ∀ op' ∈ rest, op'.Ordinary :=
      fun op' hmem => hops op' (List.mem_cons_of_mem _ hmem)
    by_cases hassemble : ∃ limit timestamp waiting, op = .assemble limit timestamp waiting
    · -- one datagram more on either side, and then the rest of the run with the next key
      obtain ⟨limit, timestamp, waiting, rfl⟩ := hassemble
      obtain ⟨assembled, reading, after, hstep, hread, hsame, hnext⟩ :=
        assemble_arrives hbook hcodes hkey limit timestamp hop
      have hsent : transmissions book session (.assemble limit timestamp waiting :: rest) =
          ⟨session, limit, timestamp, waiting, .ok assembled⟩ ::
            transmissions book after rest := by
        rw [transmissions, trace, step_assemble, hstep]
        rfl
      have hdatagrams : datagrams book session (.assemble limit timestamp waiting :: rest) =
          assembled.bytes :: datagrams book after rest := by
        rw [datagrams, hsent]
        rfl
      have hafter : (session.step book (.assemble limit timestamp waiting)).after = after := by
        rw [step_assemble, hstep]
      obtain ⟨harrives, hend⟩ := ih hnext hrest
      rw [hsent, hdatagrams, run_cons, hafter, Client.listen, Client.keyAfter, List.foldl_cons,
        hread]
      exact ⟨.cons ⟨assembled, reading, rfl, rfl, hsame⟩ harrives, hend⟩
    · -- nothing is sent and the key stays
      have hrotate : op ≠ .rotateKey := by
        rintro rfl
        exact hop
      have hcurrent := (ciphers_step book session hassemble hrotate).1
      have hnone : (session.step book op).transmission? = none := by
        cases op with
        | assemble limit timestamp waiting => exact absurd ⟨limit, timestamp, waiting, rfl⟩ hassemble
        | _ => rfl
      have hsent : transmissions book session (op :: rest) =
          transmissions book (session.step book op).after rest := by
        rw [transmissions, trace, List.filterMap_cons, hnone]
        rfl
      have hdatagrams : datagrams book session (op :: rest) =
          datagrams book (session.step book op).after rest := by
        rw [datagrams, hsent]
        rfl
      rw [hsent, hdatagrams, run_cons]
      exact ih (hcurrent.trans hkey) hrest

/-- **The client can read every datagram.** Take any code lengths and any key, and any run from
a login with that key: new sub-packets are packed whenever and as many as one likes, and in
between datagrams come in, logins are repeated and sequence numbers start over. Packing always
gives a datagram, and a client that starts with the key, gets the datagrams in order and changes
its key after each with a zone packet reads in every one what was packed. -/
theorem client_reads_every_datagram (lengths : Code.Lengths) :
    ∃ book, lengths.book = .ok book ∧
      ∀ (address : Address) (character : UInt32) (key : Cipher.Key) (now : Instant)
        (ops : List Op), (∀ op ∈ ops, op.Ordinary) →
        List.Forall₂ Transmission.Arrives
            (transmissions book (start address character key now) ops)
            (Client.listen book key (datagrams book (start address character key now) ops)) ∧
          ((start address character key now).run book ops).current =
            .ofKey (Client.keyAfter book key
              (datagrams book (start address character key now) ops)) := by
  obtain ⟨book, hbook, hencoder, hfaithful⟩ := lengths.exists_book
  have hcodes : ∀ b, (book.encoder.entry b).bits ≤ 32 := hencoder ▸ lengths.bits_entry_le
  refine ⟨book, hbook, fun address character key now ops hops => ?_⟩
  have hkey : (start address character key now).current = .ofKey key := by rw [start]
  exact run_arrives hfaithful hcodes hkey hops

/-- A zone packet and another one, a repeated login that starts the numbers over, and one more
sub-packet, which comes under the next key. -/
def zoneChange : List Op :=
  [.assemble 10 77 [.make 0x0B [1, 2, 3], .make 0x15 []], .receiveLogin 5 [] ⟨⟨3, 0, 0⟩, 7, 2⟩,
    .restartLogin, .resync 2, .assemble 10 78 [.make 0x15 [4]]]

theorem client_reads_every_datagram_zoneChange :
    ∃ book session, Code.Lengths.standard.book = .ok book ∧
      session = start (.v4 127 0 0 1 5000) 7 (.ofText "secret") 0 ∧
      (∀ op ∈ zoneChange, op.Ordinary) ∧
      List.Forall₂ Transmission.Arrives (transmissions book session zoneChange)
        (Client.listen book (.ofText "secret") (datagrams book session zoneChange)) := by
  obtain ⟨book, hbook, hreads⟩ := client_reads_every_datagram .standard
  have hfirst : (Op.assemble 10 77 [.make 0x0B [1, 2, 3], .make 0x15 []]).Ordinary := by
    intro packet hmem
    rcases List.mem_pair.mp hmem with rfl | rfl
    · exact ⟨_, _, rfl, by decide⟩
    · exact ⟨_, _, rfl, by decide⟩
  have hlast : (Op.assemble 10 78 [.make 0x15 [4]]).Ordinary := by
    intro packet hmem
    obtain rfl := List.mem_singleton.mp hmem
    exact ⟨_, _, rfl, by decide⟩
  have hops : ∀ op ∈ zoneChange, op.Ordinary := by
    intro op hop
    simp only [zoneChange, List.mem_cons, List.not_mem_nil, or_false] at hop
    rcases hop with rfl | rfl | rfl | rfl | rfl
    · exact hfirst
    · trivial
    · trivial
    · trivial
    · exact hlast
  exact ⟨book, _, hbook, rfl, hops, (hreads _ 7 _ 0 zoneChange hops).1⟩

end Session

end ZoneRelay
