import ZoneRelay.Proofs.Cipher.Image
import ZoneRelay.Proofs.Code.Layout
import ZoneRelay.Proofs.Session.Packing

/-!
# What a client sends is accepted

A client frames its sub-packets, each under its own number, puts a zero byte behind them,
compresses, seals and enciphers. **The relay takes all of it apart again**
(`ZoneRelay.Session.client_datagram_accepted`): the datagram is accepted under the key the
client used, the current one or the one before a pending change; the sub-packets that are
login requests or lie in the window are forwarded in order, the others counted; and the
session changes in nothing but what such a datagram changes.

| stage | what comes out | theorem |
|---|---|---|
| deciphering | the clear datagram, under the current key | `decrypt_encryptPacket` |
| | or under the one before | `decrypt_encryptPacket_previous` |
| opening | header and region | `Client.Carries.openRegion_eq` |
| harvesting | the forwarded sub-packets and the window after | `harvest_region` |

The statement is about every session and speaks of its ciphers. In a reachable session they
are those of its keys (`ZoneRelay.Session.Keyed`).
-/

namespace ZoneRelay

namespace Session

open ZoneRelay.Frame

/-! ### What is forwarded -/

/-- Whether a sub-packet is forwarded: it is a login request, or its number lies above the
client's and not above its datagram's. -/
def forwards (session : Session) (header : Header) (packet : SubPacket) : Bool :=
  packet.kind == loginType ||
    (session.clientSequence < packet.sequence && packet.sequence ≤ header.sequence)

/-- What a session forwards of a client's sub-packets. -/
def forwarded (session : Session) (header : Header) (packets : List SubPacket) :
    List SubPacket :=
  (packets.map (·.delivered)).filter (session.forwards header)

/-- What a session does not forward of them. -/
def skipped (session : Session) (header : Header) (packets : List SubPacket) : List SubPacket :=
  (packets.map (·.delivered)).filter fun packet => !session.forwards header packet

/-- The receipt of a client's datagram. -/
def receiptOf (session : Session) (opening : Opening) (header : Header)
    (packets : List SubPacket) : Receipt where
  header
  kind := .opened opening
  packets := session.forwarded header packets
  skipped := (session.skipped header packets).length
  ending := .complete
  resend := session.resendFor header.ack

/-- The session after a client's datagram: the client's number moves up to the datagram's if
anything was forwarded. -/
def heard (session : Session) (header : Header) (packets : List SubPacket) (now : Instant) :
    Session :=
  { session with
    clientSequence :=
      if session.forwarded header packets = [] then session.clientSequence
      else max session.clientSequence header.sequence
    lastActive := now }

/-- **Harvesting the client's frames** gives what is forwarded and counts the rest. -/
theorem harvest_region (session : Session) (header : Header) {packets : List SubPacket}
    (hshort : ∀ packet ∈ packets, packet.frameLength ≤ maxFrameSize) (now : Instant) :
    (session.harvest header.sequence (region packets ++ [0])).1 =
        ⟨session.forwarded header packets, (session.skipped header packets).length, .complete⟩ ∧
      (session.harvest header.sequence (region packets ++ [0])).2.touch now =
        session.heard header packets now := by
  have hdemux := demux_region hshort front_zero
  have haccepts : ∀ packet : SubPacket, session.accepts header.sequence packet.raw =
      session.forwards header packet.delivered := fun _ => rfl
  have hforwarded : session.forwarded header packets =
      ((packets.map SubPacket.raw).filter (session.accepts header.sequence)).map
        (·.toSubPacket) := by
    rw [forwarded, List.filter_map, List.filter_map, List.map_map]
    refine congrArg₂ List.map (funext fun packet => ?_) rfl
    exact packet.toSubPacket_raw.symm
  have hskipped : (session.skipped header packets).length =
      ((packets.map SubPacket.raw).filter
        fun raw => !session.accepts header.sequence raw).length := by
    rw [skipped, List.filter_map, List.filter_map, List.length_map, List.length_map]
    rfl
  -- the walk over the region gives raw sub-packets, the statement is about what they deliver
  rw [harvest_eq, hdemux]
  refine ⟨by rw [hforwarded, hskipped], ?_⟩
  rw [heard, hforwarded]
  simp only [List.map_eq_nil_iff]
  split
  · rfl
  · rfl

/-! ### Deciphering -/

/-- A datagram of the client under the current key opens under it. -/
theorem decrypt_encryptPacket (session : Session) {clear : Bytes} (hlong : 45 ≤ clear.length)
    (hverify : verifyChecksum clear = true) :
    session.decrypt (session.current.schedule.encryptPacket headerSize clear) =
      (.ok (.current, clear), session.confirmed) := by
  have hnot : ¬ clear.length ≤ headerSize := by
    rw [headerSize]
    omega
  rw [decrypt_eq, Cipher.Schedule.length_encryptPacket, if_neg hnot,
    Cipher.Schedule.decryptPacket_encryptPacket]
  simp only [hverify, if_true]
  rfl

/-- A datagram under the key before a pending change opens under that one, unless it does
under the current one. -/
theorem decrypt_encryptPacket_previous {session : Session} {cipher : KeyedCipher}
    {clear : Bytes} (hpending : session.status = .pending)
    (hprevious : session.previous = some cipher) (hlong : 45 ≤ clear.length)
    (hverify : verifyChecksum clear = true)
    (hother : verifyChecksum (session.current.schedule.decryptPacket headerSize
      (cipher.schedule.encryptPacket headerSize clear)) = false) :
    session.decrypt (cipher.schedule.encryptPacket headerSize clear) =
      (.ok (.previous, clear), session) := by
  have hnot : ¬ clear.length ≤ headerSize := by
    rw [headerSize]
    omega
  have hfallback : session.fallback? = some cipher := by
    rw [fallback?, if_pos hpending, hprevious]
  rw [decrypt_eq, Cipher.Schedule.length_encryptPacket, if_neg hnot]
  simp only [hother, Bool.false_eq_true, if_false, hfallback,
    Cipher.Schedule.decryptPacket_encryptPacket, hverify, if_true]

/-! ### Receiving -/

theorem size_openRegion (book : Code.Book) (pool : BufferPool) (clear : Bytes) :
    (openRegion book pool clear).2.size = pool.size := by
  rw [openRegion]
  split
  · rfl
  · split
    · rfl
    · exact (pool.acquire.2.size_release _).trans pool.size_acquire

/-- **Receiving hands on buffers of the same size.** -/
theorem size_receive (book : Code.Book) (pool : BufferPool) (session : Session) (now : Instant)
    (datagram : Bytes) : (session.receive book pool now datagram).2.2.size = pool.size := by
  rw [receive]
  split
  · rfl
  · rcases session.decrypt datagram with ⟨fault | ⟨opening, clear⟩, opened⟩
    · rfl
    · have hsize := size_openRegion book pool clear
      rcases hopen : openRegion book pool clear with ⟨fault | ⟨header, region⟩, pool'⟩ <;>
        rw [hopen] at hsize <;> simpa only [hopen] using hsize

/-- **A datagram that carries the client's frames is received**, once it was deciphered. -/
theorem receive_of_carries {book : Code.Book} (hbook : book.Faithful) {pool : BufferPool}
    {session opened : Session} {opening : Opening} {header : Header} {packets : List SubPacket}
    {clear datagram : Bytes} (hshort : ∀ packet ∈ packets, packet.frameLength ≤ maxFrameSize)
    (hroom : (region packets ++ [0]).length ≤ pool.size)
    (hcarries : Client.Carries book header (region packets ++ [0]) clear)
    (hlength : datagram.length = clear.length)
    (hdecrypt : session.decrypt datagram = (.ok (opening, clear), opened)) (now : Instant) :
    ∃ pool', pool'.size = pool.size ∧ session.receive book pool now datagram =
      (.ok (opened.receiptOf opening header packets), opened.heard header packets now,
        pool') := by
  have hopen := hcarries.openRegion_eq hbook hroom
  rcases hresult : openRegion book pool clear with ⟨result, pool'⟩
  rw [hresult] at hopen
  simp only at hopen
  rw [hopen] at hresult
  have hreceive := receive_eq_ok now (hlength ▸ hcarries.le_length) hdecrypt hresult
  obtain ⟨hfound, hafter⟩ := opened.harvest_region header hshort now
  have hsize := size_receive book pool session now datagram
  rw [hreceive] at hsize
  refine ⟨pool', hsize, ?_⟩
  rw [hreceive, receipt, hfound, hafter]
  rfl

/-- A client that uses the current key finds a datagram that its session receives, with any
sub-packets that fit into one and into the buffers that are there for it. -/
theorem exists_receive_of_room {lengths : Code.Lengths} {book : Code.Book}
    (hbook : lengths.book = .ok book) (session : Session) (pool : BufferPool) (now : Instant)
    (header : Header) (packets : List SubPacket)
    (hpayload : ∀ packet ∈ packets, packet.payload.length ≤ 504)
    (hregion : (region packets ++ [0]).length ≤ maxDatagramSize)
    (hroom : (region packets ++ [0]).length ≤ pool.size) :
    ∃ clear pool', Client.Carries book header (region packets ++ [0]) clear ∧
      session.receive book pool now (session.current.schedule.encryptPacket headerSize clear) =
        (.ok (session.receiptOf .current header packets),
          session.confirmed.heard header packets now, pool') := by
  obtain ⟨other, hother, hencoder, hfaithful⟩ := lengths.exists_book
  obtain rfl : book = other := Except.ok.inj (hbook.symm.trans hother)
  have hcodes : ∀ b, (book.encoder.entry b).bits ≤ 32 := hencoder ▸ lengths.bits_entry_le
  obtain ⟨clear, hcarries, -⟩ :=
    Client.datagram_eq session.current header (Client.encode_small hcodes hregion)
  have hshort : ∀ packet ∈ packets, packet.frameLength ≤ maxFrameSize :=
    fun packet hmem => SubPacket.frameLength_le (hpayload packet hmem)
  obtain ⟨pool', -, hreceive⟩ := receive_of_carries hfaithful hshort hroom hcarries
    (Cipher.Schedule.length_encryptPacket _ _ _)
    (session.decrypt_encryptPacket hcarries.le_length hcarries.verifyChecksum_eq) now
  exact ⟨clear, pool', hcarries, hreceive⟩

/-- The buffers of the relay have room for any of them. -/
theorem exists_receive {lengths : Code.Lengths} {book : Code.Book}
    (hbook : lengths.book = .ok book) (session : Session) (pool : BufferPool) (now : Instant)
    (header : Header) (packets : List SubPacket) (hpool : pool.size = maxDatagramSize)
    (hpayload : ∀ packet ∈ packets, packet.payload.length ≤ 504)
    (hregion : (region packets ++ [0]).length ≤ maxDatagramSize) :
    ∃ clear pool', Client.Carries book header (region packets ++ [0]) clear ∧
      session.receive book pool now (session.current.schedule.encryptPacket headerSize clear) =
        (.ok (session.receiptOf .current header packets),
          session.confirmed.heard header packets now, pool') :=
  exists_receive_of_room hbook session pool now header packets hpayload hregion
    (hpool ▸ hregion)

/-! ### Ciphers and keys -/

/-- **The ciphers of a session are those of its keys.** -/
def Keyed (session : Session) : Prop :=
  session.current = .ofKey session.current.key ∧
    ∀ cipher, session.previous = some cipher → cipher = .ofKey cipher.key

/-- Every operation keeps the ciphers those of the keys. -/
theorem Keyed.step {book : Code.Book} {session : Session} (h : session.Keyed) (op : Op) :
    (session.step book op).after.Keyed := by
  have hrotated : ∀ other : Session, other.current = session.current →
      other.rotateKey.Keyed := by
    intro other hcurrent
    refine ⟨rfl, fun cipher hcipher => ?_⟩
    cases hcipher
    rw [hcurrent]
    exact h.1
  by_cases hassemble : ∃ limit timestamp waiting, op = .assemble limit timestamp waiting
  · obtain ⟨limit, timestamp, waiting, rfl⟩ := hassemble
    rw [step_assemble]
    rcases session.assemble_cases book limit timestamp waiting with
      ⟨fault, heq⟩ | ⟨bytes, consumed, zone, -, -, heq⟩
    · rw [heq]
      exact h
    · rw [heq]
      simp only
      split
      · exact hrotated _ (current_recordSent session bytes)
      · exact h
  · by_cases hrotate : op = .rotateKey
    · rw [hrotate]
      exact hrotated session rfl
    · obtain ⟨hcurrent, hprevious⟩ := ciphers_step book session hassemble hrotate
      refine ⟨hcurrent ▸ h.1, fun cipher hcipher => ?_⟩
      rcases hprevious with hkept | hdropped
      · exact h.2 cipher (hkept ▸ hcipher)
      · rw [hdropped] at hcipher
        cases hcipher

/-- **The ciphers of a reachable session are those of its keys.** -/
theorem Reachable.keyed {book : Code.Book} {session : Session} (h : Reachable book session) :
    session.Keyed :=
  h.induction (fun _ _ _ _ => ⟨rfl, nofun⟩) fun _ op hkeyed => hkeyed.step op

/-! ### The main statement -/

/-- **What a client sends is accepted.** Take any code lengths, any session, and any
sub-packets whose payloads fit into a frame and whose frames, with a zero byte, fit into the
4096 bytes of a region. The client's datagram with them, under any header, is received

* under the current key, which confirms it: a pending change is over;
* under the key before a pending change, if it does not open under the current one.

What is forwarded, what is counted, the request to resend, and the session afterwards are
those of `ZoneRelay.Session.receiptOf` and `ZoneRelay.Session.heard`. The ciphers of a session
that a run can lead to are those of its keys. -/
theorem client_datagram_accepted (lengths : Code.Lengths) :
    ∃ book, lengths.book = .ok book ∧
      (∀ (session : Session) (pool : BufferPool) (now : Instant) (header : Header)
        (packets : List SubPacket), pool.size = maxDatagramSize →
        (∀ packet ∈ packets, packet.payload.length ≤ 504) →
        (region packets ++ [0]).length ≤ maxDatagramSize →
        (∃ datagram pool', Client.datagram book session.current header packets = .ok datagram ∧
          pool'.size = maxDatagramSize ∧
          session.receive book pool now datagram =
            (.ok (session.receiptOf .current header packets),
              session.confirmed.heard header packets now, pool')) ∧
        ∀ cipher, session.status = .pending → session.previous = some cipher →
          ∃ datagram, Client.datagram book cipher header packets = .ok datagram ∧
            (verifyChecksum (session.current.schedule.decryptPacket headerSize datagram) = false →
              ∃ pool', pool'.size = maxDatagramSize ∧
                session.receive book pool now datagram =
                  (.ok (session.receiptOf .previous header packets),
                    session.heard header packets now, pool'))) ∧
      ∀ session, Reachable book session → session.Keyed := by
  obtain ⟨book, hbook, hencoder, hfaithful⟩ := lengths.exists_book
  have hcodes : ∀ b, (book.encoder.entry b).bits ≤ 32 := hencoder ▸ lengths.bits_entry_le
  refine ⟨book, hbook, fun session pool now header packets hpool hpayload hregion => ?_,
    fun session h => h.keyed⟩
  have hshort : ∀ packet ∈ packets, packet.frameLength ≤ maxFrameSize :=
    fun packet hmem => SubPacket.frameLength_le (hpayload packet hmem)
  have hsmall : (book.encoder.encode (region packets ++ [0])).length + 8 < 2 ^ 32 := by
    have hlen := Code.Encoder.length_encode_le hcodes (region packets ++ [0])
    rw [maxDatagramSize] at hregion
    omega
  refine ⟨?_, fun cipher hpending hprevious => ?_⟩
  · obtain ⟨clear, hcarries, hdatagram⟩ := Client.datagram_eq session.current header hsmall
    have hdecrypt := session.decrypt_encryptPacket hcarries.le_length
      hcarries.verifyChecksum_eq
    obtain ⟨pool', hsize, hreceive⟩ := receive_of_carries hfaithful hshort (hpool ▸ hregion)
      hcarries (by simp) hdecrypt now
    exact ⟨_, pool', hdatagram, hsize.trans hpool, hreceive⟩
  · obtain ⟨clear, hcarries, hdatagram⟩ := Client.datagram_eq cipher header hsmall
    refine ⟨_, hdatagram, fun hother => ?_⟩
    have hdecrypt := decrypt_encryptPacket_previous hpending hprevious hcarries.le_length
      hcarries.verifyChecksum_eq hother
    obtain ⟨pool', hsize, hreceive⟩ := receive_of_carries hfaithful hshort (hpool ▸ hregion)
      hcarries (by simp) hdecrypt now
    exact ⟨pool', hsize.trans hpool, hreceive⟩

/-! ### A client that is behind a change of key -/

/-- The stream of one frame and a zero byte, with the standard code lengths. -/
theorem compressed_standard {book : Code.Book}
    (hencoder : book.encoder = Code.Lengths.standard.encoder) :
    book.compressed (region [⟨0x15, 2, [1, 2, 3, 4]⟩] ++ [0]) =
      .ok (77, [1, 81, 2, 7, 68, 128, 128, 129, 2, 3]) := by
  have hlongest : book.maxCompressedLength 9 = 13 := by
    rw [Code.Book.maxCompressedLength, Code.Encoder.longest, hencoder]
    simp only [Code.Lengths.entry_encoder]
    decide +kernel
  have hregion : region [⟨0x15, 2, [1, 2, 3, 4]⟩] ++ [0] = [0x15, 4, 2, 0, 1, 2, 3, 4, 0] := rfl
  have hlength : ([0x15, 4, 2, 0, 1, 2, 3, 4, 0] : Bytes).length = 9 := rfl
  have hzeros : Bytes.zeros 13 = 0 :: Bytes.zeros 12 := rfl
  rw [hregion, Code.Book.compressed, hlength, hlongest, hzeros, Code.Book.compress, hencoder]
  simp only [Code.Encoder.write, Code.Lengths.entry_encoder]
  decide +kernel

/-- What a client sends under the key `secret`: header and ciphered region of a datagram with one
sub-packet. -/
def secretDatagram : Bytes :=
  (Header.mk 2 0 0).toBytes ++
    [134, 172, 42, 99, 174, 145, 25, 113, 39, 69, 137, 45, 142, 64, 197, 196, 116, 144, 62, 248,
      34, 223, 218, 202, 242, 11, 29, 164, 76, 16]

theorem datagram_secret {book : Code.Book}
    (hencoder : book.encoder = Code.Lengths.standard.encoder) :
    Client.datagram book (.ofKey (.ofText "secret")) ⟨2, 0, 0⟩ [⟨0x15, 2, [1, 2, 3, 4]⟩] =
      .ok secretDatagram := by
  rw [Client.datagram, compressed_standard hencoder]
  exact congrArg Except.ok (Cipher.Image.encryptPacket_key (by decide +kernel))

/-- A session with that key receives it. -/
theorem receive_secret {book : Code.Book} (hbook : Code.Lengths.standard.book = .ok book)
    {pool : BufferPool} (hpool : pool.size = maxDatagramSize) {session : Session}
    (hcurrent : session.current = .ofKey (.ofText "secret")) (now : Instant) :
    (session.receive book pool now secretDatagram).1 =
      .ok (session.receiptOf .current ⟨2, 0, 0⟩ [⟨0x15, 2, [1, 2, 3, 4]⟩]) := by
  obtain ⟨other, hother, hencoder, hfaithful⟩ := Code.Lengths.standard.exists_book
  obtain rfl : book = other := Except.ok.inj (hbook.symm.trans hother)
  have hcodes : ∀ b, (book.encoder.entry b).bits ≤ 32 :=
    hencoder ▸ Code.Lengths.standard.bits_entry_le
  have hregion : (region [⟨0x15, 2, [1, 2, 3, 4]⟩] ++ [0]).length ≤ maxDatagramSize := by decide
  obtain ⟨clear, hcarries, hdatagram⟩ :=
    Client.datagram_eq session.current ⟨2, 0, 0⟩ (Client.encode_small hcodes hregion)
  rw [hcurrent, datagram_secret hencoder, ← hcurrent] at hdatagram
  obtain ⟨pool', -, hreceive⟩ := receive_of_carries hfaithful (by decide) (hpool ▸ hregion)
    hcarries (Cipher.Schedule.length_encryptPacket _ _ _)
    (session.decrypt_encryptPacket hcarries.le_length hcarries.verifyChecksum_eq) now
  rw [Except.ok.inj hdatagram, hreceive]
  rfl

/-- Under the next key that datagram does not open. -/
theorem verifyChecksum_secret :
    verifyChecksum ((Cipher.Key.ofText "secret").incremented.schedule.decryptPacket headerSize
      secretDatagram) = false := by
  have hclear : (Cipher.Key.ofText "secret").incremented.schedule.encryptPacket headerSize
      ((Header.mk 2 0 0).toBytes ++
        [55, 162, 106, 172, 144, 215, 56, 127, 151, 87, 81, 193, 71, 22, 65, 130, 82, 58, 67, 55,
          247, 146, 50, 126, 242, 11, 29, 164, 76, 16]) = secretDatagram :=
    Cipher.Image.encryptPacket_key (by decide +kernel)
  rw [← hclear, Cipher.Schedule.decryptPacket_encryptPacket]
  decide +kernel

/-- A session that has sent its client a zone packet. -/
def zoneSession (book : Code.Book) : Session :=
  (start (.v4 127 0 0 1 5000) 7 (.ofText "secret") 0).run book [.assemble 10 0 [.make 0x0B []]]

/-- It is still without an answer under the next key. -/
theorem zoneSession_pending {book : Code.Book} (hcodes : ∀ b, (book.encoder.entry b).bits ≤ 32) :
    (zoneSession book).status = .pending ∧
      (zoneSession book).previous = some (.ofKey (.ofText "secret")) ∧
      (zoneSession book).current = .ofKey (Cipher.Key.ofText "secret").incremented := by
  obtain ⟨datagram, bytes, hassemble⟩ := @assemble_zone book hcodes 10 (by decide)
    (start (.v4 127 0 0 1 5000) 7 (.ofText "secret") 0) 0 (.make 0x0B []) rfl (by decide)
  rw [zoneSession, run_cons, step_assemble, hassemble]
  exact ⟨rfl, rfl, rfl⟩

/-- Of three sub-packets the first is in the window, the second is above its datagram's number,
and the third is a login request. And a datagram under the key before a pending change. -/
theorem client_datagram_accepted_both : ∃ book, Code.Lengths.standard.book = .ok book ∧
    (∃ session header packets datagram pool',
      session = start (.v4 127 0 0 1 5000) 7 (.ofText "secret") 0 ∧ header = ⟨2, 0, 0⟩ ∧
      packets = [⟨0x15, 1, [7]⟩, ⟨0x15, 3, []⟩, ⟨0x0A, 9, []⟩] ∧
      session.forwarded header packets = [⟨0x15, 1, [7, 0, 0, 0]⟩, ⟨0x0A, 9, []⟩] ∧
      Client.datagram book session.current header packets = .ok datagram ∧
      session.receive book regionBuffers 5 datagram =
        (.ok (session.receiptOf .current header packets),
          session.confirmed.heard header packets 5, pool')) ∧
    ∃ session datagram pool', session = zoneSession book ∧ session.status = .pending ∧
      Client.datagram book (.ofKey (.ofText "secret")) ⟨2, 0, 0⟩ [⟨0x15, 2, [1, 2, 3, 4]⟩] =
        .ok datagram ∧
      session.receive book regionBuffers 5 datagram =
        (.ok (session.receiptOf .previous ⟨2, 0, 0⟩ [⟨0x15, 2, [1, 2, 3, 4]⟩]),
          session.heard ⟨2, 0, 0⟩ [⟨0x15, 2, [1, 2, 3, 4]⟩] 5, pool') := by
  obtain ⟨book, hbook, haccepted, -⟩ := client_datagram_accepted .standard
  have hencoder : book.encoder = Code.Lengths.standard.encoder := by
    obtain ⟨other, hother, hencoder, -⟩ := Code.Lengths.standard.exists_book
    rw [hbook] at hother
    cases hother
    exact hencoder
  have hpool : regionBuffers.size = maxDatagramSize := rfl
  refine ⟨book, hbook, ?_, ?_⟩
  · obtain ⟨⟨datagram, pool', hdatagram, -, hreceive⟩, -⟩ :=
      haccepted (start (.v4 127 0 0 1 5000) 7 (.ofText "secret") 0) regionBuffers 5 ⟨2, 0, 0⟩
        [⟨0x15, 1, [7]⟩, ⟨0x15, 3, []⟩, ⟨0x0A, 9, []⟩] hpool (by decide) (by decide)
    exact ⟨_, _, _, datagram, pool', rfl, rfl, rfl, by decide, hdatagram, hreceive⟩
  · obtain ⟨hpending, hprevious, hcurrent⟩ :=
      zoneSession_pending (hencoder ▸ Code.Lengths.standard.bits_entry_le)
    obtain ⟨datagram, hdatagram, hreceive⟩ :=
      (haccepted (zoneSession book) regionBuffers 5 ⟨2, 0, 0⟩ [⟨0x15, 2, [1, 2, 3, 4]⟩] hpool
        (by decide) (by decide)).2 (.ofKey (.ofText "secret")) hpending hprevious
    obtain rfl : secretDatagram = datagram :=
      Except.ok.inj ((datagram_secret hencoder).symm.trans hdatagram)
    obtain ⟨pool', -, hresult⟩ := hreceive (by rw [hcurrent]; exact verifyChecksum_secret)
    exact ⟨_, _, pool', rfl, hpending, hdatagram, hresult⟩

end Session

end ZoneRelay
