import ZoneRelay.Proofs.Relay.History

/-!
# Datagrams that are rejected

Anyone can send anything to the relay. A datagram may be too short, or a login that is malformed
or of a character without a key; its sender may have no session; it may open under no key, or
hold a stream that cannot be read. **Wherever it fails, it changes nothing but the state of a
key** (`ZoneRelay.Relay.handle_error`): where a pending change of key is on, and the datagram is
sealed under the new key, the change is confirmed before the stream is looked at, and stays
confirmed although the stream cannot be read.

Every place that can fail gives one of a few faults (`ZoneRelay.Fault.rejects`), none of which
stops the relay.

| what fails | the faults | theorem |
|---|---|---|
| reading a stream | a corrupt stream, a wrong first byte | `ZoneRelay.Code.Book.rejects_decompress` |
| taking a clear datagram apart | these, and too few bytes | `ZoneRelay.Session.rejects_openRegion` |
| receiving under a session | these, and that no key opens it | `ZoneRelay.Session.receive_error` |
| reading a login | too few bytes, no login, a wrong sum | `ZoneRelay.Login.rejects_parse?` |
| admitting it | whatever the source of keys says | `ZoneRelay.Relay.acceptLogin_error` |

The source of keys is open. One that holds them in memory says no more than that it does not know
the character.
-/

namespace ZoneRelay

open ZoneRelay.Frame

/-! ### The faults -/

namespace Fault

/-- The faults for which the relay itself rejects a datagram. -/
def rejects : Fault → Bool
  | inputTruncated .. | malformedLogin _ | checksumMismatch | keys _ | sessionNotFound _
  | decryptionFailure | corruptStream _ | invalidHeader => true
  | _ => false

/-- **None of them stops the relay**, and none is for want of room. -/
theorem category_of_rejects {fault : Fault} (h : fault.rejects) :
    fault.isFatal = false ∧ fault.category ≠ .configuration ∧ fault.category ≠ .capacity := by
  cases fault <;> cases h <;> exact ⟨rfl, nofun, nofun⟩

end Fault

/-! ### Reading a stream -/

namespace Code

theorem rejects_dataBits {input : Bytes} {bitCount : UInt32} {fault : Fault}
    (h : dataBits input bitCount = .error fault) : fault.rejects := by
  by_cases hform : Opens input bitCount
  · cases hform.dataBits_eq.symm.trans h
  · rcases dataBits_error hform with herror | ⟨cause, herror, -⟩
    · cases herror.symm.trans h
      rfl
    · cases herror.symm.trans h
      rfl

theorem Book.rejects_decompress {book : Book} {input buffer : Bytes} {bitCount : UInt32}
    {fault : Fault} (h : (book.decompress input bitCount buffer).1 = .error fault) :
    fault.rejects := by
  rcases hbits : dataBits input bitCount with fault' | bits
  · simp only [decompress, hbits] at h
    cases h
    exact rejects_dataBits hbits
  · rcases hstuck : (book.trie.walk buffer.length 0 0 bits).stuck with _ | cause
    · simp only [decompress, hbits, hstuck] at h
      cases h
    · simp only [decompress, hbits, hstuck] at h
      cases h
      rfl

end Code

/-! ### Receiving under a session -/

namespace Session

variable {book : Code.Book} {pool : BufferPool} {session : Session} {datagram clear : Bytes}
  {fault : Fault}

theorem rejects_openRegion (h : (openRegion book pool clear).1 = .error fault) :
    fault.rejects := by
  rw [openRegion] at h
  split at h
  · rename_i fault' hheader
    rw [Header.ofDatagram] at hheader
    split at hheader <;> cases hheader
    cases h
    rfl
  · split at h
    · rename_i fault' hregion
      rw [compressedRegion] at hregion
      simp only at hregion
      cases h
      split at hregion
      · cases hregion
        rfl
      · split at hregion <;> cases hregion
        rfl
    · rename_i stream bitCount _
      simp only [unpack] at h
      rcases hread : (book.decompress stream bitCount pool.acquire.1).1 with fault' | size
      · rw [hread] at h
        cases h
        exact Code.Book.rejects_decompress hread
      · rw [hread] at h
        cases h

/-- A datagram in the clear, if it was sealed under the key in use. -/
def cleared (session : Session) (datagram : Bytes) : Bytes :=
  session.current.schedule.decryptPacket headerSize datagram

theorem decrypt_error {opened : Session} (h : session.decrypt datagram = (.error fault, opened)) :
    fault.rejects ∧ opened = session := by
  rw [decrypt_eq] at h
  split at h
  · cases h
    exact ⟨rfl, rfl⟩
  · simp only at h
    split at h
    · cases h
    · split at h
      · cases h
        exact ⟨rfl, rfl⟩
      · split at h <;> cases h
        exact ⟨rfl, rfl⟩

/-- Opening a datagram changes the session only if it was sealed under the key in use. -/
theorem decrypt_ok {opened : Session} {opening : Opening}
    (h : session.decrypt datagram = (.ok (opening, clear), opened)) :
    opened = session ∨
      opened = session.confirmed ∧ clear = session.cleared datagram ∧ verifyChecksum clear := by
  rw [decrypt_eq] at h
  split at h
  · cases h
  · simp only at h
    split at h
    · rename_i hverify
      cases h
      exact Or.inr ⟨rfl, rfl, hverify⟩
    · split at h
      · cases h
      · split at h <;> cases h
        exact Or.inl rfl

/-- **A datagram that is not received** leaves its session alone, or it was sealed under the key in
use and cannot be taken apart. Then the key is confirmed all the same. -/
theorem receive_error {now : Instant}
    (h : (session.receive book pool now datagram).1 = .error fault) :
    fault.rejects ∧
      ((session.receive book pool now datagram).2.1 = session ∨
        (session.receive book pool now datagram).2.1 = session.confirmed ∧
          verifyChecksum (session.cleared datagram) ∧
          (openRegion book pool (session.cleared datagram)).1 = .error fault) := by
  have hunopened : ∀ opening clear opened,
      session.decrypt datagram = (.ok (opening, clear), opened) →
      ¬ datagram.length < headerSize + checksumSize + 1 →
      (openRegion book pool clear).1 = .error fault ∧
        (session.receive book pool now datagram).2.1 = opened := by
    intro opening clear opened hdecrypt hlong
    rcases hopen : openRegion book pool clear with ⟨fault' | ⟨header, region⟩, pool'⟩
    · have hreceive : session.receive book pool now datagram =
          (.error fault', opened, pool') := by
        simp only [receive, if_neg hlong, hdecrypt, hopen]
      rw [hreceive] at h ⊢
      cases h
      exact ⟨rfl, rfl⟩
    · rw [receive_eq_ok now (Nat.le_of_not_lt hlong) hdecrypt hopen] at h
      cases h
  by_cases hshort : datagram.length < headerSize + checksumSize + 1
  · rw [receive] at h ⊢
    rw [if_pos hshort] at h ⊢
    cases h
    exact ⟨rfl, Or.inl rfl⟩
  · rcases hdecrypt : session.decrypt datagram with ⟨fault' | ⟨opening, clear⟩, opened⟩
    · have hreceive : session.receive book pool now datagram = (.error fault', opened, pool) := by
        simp only [receive, if_neg hshort, hdecrypt]
      rw [hreceive] at h ⊢
      obtain ⟨hfault, rfl⟩ := decrypt_error hdecrypt
      cases h
      exact ⟨hfault, Or.inl rfl⟩
    · obtain ⟨hregion, hsession⟩ := hunopened _ _ _ hdecrypt hshort
      refine ⟨rejects_openRegion hregion, ?_⟩
      rw [hsession]
      rcases decrypt_ok hdecrypt with rfl | ⟨rfl, rfl, hverify⟩
      · exact Or.inl rfl
      · exact Or.inr ⟨rfl, hverify, hregion⟩

end Session

/-! ### Reading a login -/

theorem Login.rejects_parse? {datagram : Bytes} {fault : Fault}
    (h : Login.parse? datagram = .error fault) : fault.rejects := by
  simp only [Login.parse?] at h
  split at h
  · cases h
  · split at h
    · cases h
      rfl
    · split at h
      · cases h
        rfl
      · split at h
        · cases h
          rfl
        · split at h
          · cases h
            rfl
          · rw [Header.ofDatagram] at h
            split at h <;> cases h
            rfl

/-! ### Rejecting a datagram -/

namespace Relay

open World

variable {relay after : Relay} {clock : Clock} {client : Address} {datagram : Bytes}
  {fault : Fault}

/-- A login is not admitted just where its character has no key, and then nothing changes. -/
theorem acceptLogin_error {login : Login}
    (h : relay.acceptLogin clock client datagram login = (.error fault, after)) :
    relay.provider login.character = .error fault ∧ after = relay := by
  rw [acceptLogin] at h
  split at h
  · rename_i fault' henroll
    cases h
    refine ⟨?_, rfl⟩
    rw [enroll] at henroll
    split at henroll
    · rename_i hprovider
      cases henroll
      exact hprovider
    · simp only [SessionTable.getOrInsert] at henroll
      split at henroll <;> cases henroll
  · cases h

/-- **A datagram is rejected.** The buffers for streams aside, only the sessions may be other
ones; they are those of the same clients, in the same order and with the same counters; the
others' are as they were; and the sender's is as it was, or it is confirmed because the datagram
was sealed under its key and could not be taken apart. The relay has a reason for the rejection,
or the source of keys has. -/
structure Rejects (relay : Relay) (client : Address) (datagram : Bytes) (fault : Fault)
    (after : Relay) : Prop where
  rest : after = { relay with sessions := after.sessions, scratch := after.scratch }
  table : after.sessions = { relay.sessions with sessions := after.sessions.sessions }
  addresses : after.sessions.addresses = relay.sessions.addresses
  others : ∀ other, other ≠ client → after.session? other = relay.session? other
  sender : after.session? client = relay.session? client ∨
    ∃ session, relay.session? client = some session ∧
      after.session? client = some session.confirmed ∧
      verifyChecksum (session.cleared datagram) ∧
      (Session.openRegion relay.book relay.scratch (session.cleared datagram)).1 = .error fault
  cause : fault.rejects ∨ ∃ login, Login.parse? datagram = .ok (some login) ∧
    relay.provider login.character = .error fault

namespace Rejects

/-- Nothing changes. -/
theorem refl (hcause : fault.rejects ∨ ∃ login, Login.parse? datagram = .ok (some login) ∧
    relay.provider login.character = .error fault) :
    Rejects relay client datagram fault relay :=
  ⟨rfl, rfl, rfl, fun _ _ => rfl, Or.inl rfl, hcause⟩

/-- **Every session keeps** all that confirming a change of key does not touch: its character, its
key, both sequence numbers, the last datagram sent and its age. -/
theorem keeps (h : Rejects relay client datagram fault after) (other : Address) :
    (after.session? other).map Session.confirmed =
      (relay.session? other).map Session.confirmed := by
  by_cases hother : other = client
  · subst hother
    rcases h.sender with hsame | ⟨session, hsession, hconfirmed, -⟩
    · rw [hsame]
    · rw [hsession, hconfirmed]
      rfl
  · rw [h.others other hother]

end Rejects

/-- **An encrypted datagram that is not accepted** is rejected. -/
theorem acceptEncrypted_error
    (h : relay.acceptEncrypted clock client datagram = (.error fault, after)) :
    Rejects relay client datagram fault after := by
  rcases hsession : relay.session? client with _ | session
  · simp only [acceptEncrypted, hsession] at h
    cases h
    exact .refl (Or.inl rfl)
  · have haddress := SessionTable.address_of_get? hsession
    rcases hreceive : session.receive relay.book relay.scratch clock.now datagram with
      ⟨fault' | receipt, received, scratch⟩
    · simp only [acceptEncrypted, hsession, hreceive] at h
      cases h
      have hfailed : (session.receive relay.book relay.scratch clock.now datagram).1 =
          .error fault := by rw [hreceive]
      obtain ⟨hfault, hreceived⟩ := Session.receive_error hfailed
      rw [hreceive] at hreceived
      simp only at hreceived
      have hidentity : received.address = client := by
        rcases hreceived with rfl | ⟨rfl, -⟩ <;> exact haddress
      have hstore := @session?_store { relay with scratch } client session received hsession
        hidentity
      refine ⟨rfl, rfl, SessionTable.addresses_modify _ fun _ => rfl, ?_, ?_, Or.inl hfault⟩
      · intro other hother
        rw [hstore, if_neg hother]
        rfl
      · rw [hstore, if_pos rfl]
        rcases hreceived with rfl | ⟨rfl, hverify, hregion⟩
        · exact Or.inl hsession.symm
        · exact Or.inr ⟨session, hsession, rfl, hverify, hregion⟩
    · simp only [acceptEncrypted, hsession, hreceive] at h
      cases h

/-- **A datagram that is not accepted** is rejected. -/
theorem accept_error (h : relay.accept clock client datagram = (.error fault, after)) :
    Rejects relay client datagram fault after := by
  rw [accept] at h
  split at h
  · cases h
    exact .refl (Or.inl rfl)
  · split at h
    · rename_i fault' hparse
      cases h
      exact .refl (Or.inl (Login.rejects_parse? hparse))
    · rename_i login hparse
      obtain ⟨hprovider, rfl⟩ := acceptLogin_error h
      exact .refl (Or.inr ⟨login, hparse, hprovider⟩)
    · exact acceptEncrypted_error h

/-- **Rejected datagrams change nothing but the state of a key.** If handling a datagram fails, and
not because a write to its sender was refused, then nothing was written or published, and the
datagram is rejected: every session keeps what it has, and where the keys are held in memory the
fault is one of a few, none of which stops the relay. -/
theorem handle_error {world : World} {journal journal' : Journal}
    (h : perform (relay.handle world.outlets clock client datagram) journal =
      ((.error fault, after), journal'))
    (hwritten : ∀ bytes reason,
      Effect.sent client bytes (.error reason) ∉ journal'.drop journal.length) :
    journal' = journal ∧ Rejects relay client datagram fault after ∧
      (∀ other, (after.session? other).map Session.confirmed =
        (relay.session? other).map Session.confirmed) ∧
      ∀ store : KeyStore, relay.provider = store.provider →
        fault.rejects ∧ fault.isFatal = false ∧ fault.category ≠ .configuration ∧
          fault.category ≠ .capacity := by
  rcases haccept : relay.accept clock client datagram with ⟨fault' | arrival, after'⟩
  · rw [perform_handle_error haccept] at h
    cases h
    have hrejects := accept_error haccept
    refine ⟨rfl, hrejects, hrejects.keeps, fun store hstore => ?_⟩
    have hfault : fault.rejects := by
      rcases hrejects.cause with hfault | ⟨login, -, hprovider⟩
      · exact hfault
      · rw [hstore, KeyStore.provider] at hprovider
        split at hprovider <;> cases hprovider
        rfl
    exact ⟨hfault, Fault.category_of_rejects hfault⟩
  · by_cases hrefused : Refused world journal client arrival.receipt.resend
    · obtain ⟨bytes, reason, hresend, hsend⟩ := hrefused
      rw [perform_handle_refused haccept hresend hsend] at h
      cases h
      refine absurd ?_ (hwritten bytes reason)
      rw [List.drop_left]
      exact List.mem_singleton_self _
    · obtain ⟨resent, ready, results, -, -, -, hperform⟩ := perform_handle_ok haccept hrefused
      rw [hperform] at h
      cases h

/-! ### A client whose change of key is pending -/

/-- **A zone packet that waits alone** leaves its client's session with a change of key pending when
the queues are emptied. -/
theorem session?_flush_zone {state : State} (hreachable : Reachable state.relay) (world : World)
    {session : Session} {packet : SubPacket}
    (hsession : state.relay.session? client = some session)
    (hwaiting : state.relay.queues.waiting client = [packet]) (hzone : packet.kind = zoneType)
    (hshort : packet.frameLength ≤ maxFrameSize) :
    ∃ bytes, (step world state (.flush clock)).after.relay.session? client =
      some (session.recordSent bytes).rotateKey := by
  obtain ⟨config, book, operations, gone, hloaded, hbalanced, -⟩ := hreachable.sound
  have hbook : state.relay.book = book := hbalanced.book_eq
  have hcodes : ∀ b, (state.relay.book.encoder.entry b).bits ≤ 32 := hbook ▸ hloaded.bits_le
  obtain ⟨effects, after, hperform, -, -, hclients⟩ :=
    perform_flush hreachable world clock state.journal
  rw [step, Op.apply, perform_bind, hperform]
  rcases hclients client with ⟨hnone, -⟩ |
    ⟨found, dispatches, back, last, hfound, hchain, -, hlast, -⟩
  · rw [hwaiting] at hnone
    cases hnone
  · obtain rfl : session = found := Option.some.inj (hsession.symm.trans hfound)
    rw [hwaiting] at hchain
    obtain ⟨datagram, hpacked⟩ := hchain.assemble_singleton
    obtain ⟨other, bytes, hassemble⟩ := Session.assemble_zone hcodes state.relay.packetLimit_pos
      session clock.timestamp hzone hshort
    rw [hpacked] at hassemble
    cases hassemble
    exact ⟨bytes, hlast⟩

/-- So it is whatever is then known of keys. -/
theorem session?_run_zone {world : World} {state : State} {session : Session}
    {packet : SubPacket}
    (hreachable : Reachable (run world state [.enqueue client [packet]]).relay)
    (hsession : state.relay.session? client = some session)
    (hwaiting : (run world state [.enqueue client [packet]]).relay.queues.waiting client = [packet])
    (hzone : packet.kind = zoneType) (hshort : packet.frameLength ≤ maxFrameSize)
    (provider : KeyProvider) :
    ∃ bytes, (run world state [.enqueue client [packet], .flush clock,
      .provide provider]).relay.session? client = some (session.recordSent bytes).rotateKey := by
  have henqueued := (session?_enqueue state.relay client [packet] client).trans hsession
  exact session?_flush_zone hreachable world henqueued hwaiting hzone hshort

/-- What is known of keys is what the relay was given last. -/
theorem provider_run_provide (world : World) (state : State) (ops : List Op)
    (provider : KeyProvider) :
    (run world state (ops ++ [.provide provider])).relay.provider = provider := by
  rw [run_append]
  rfl

/-- A client has logged in and is sent a zone packet; then all keys are withdrawn. -/
def rotated : State :=
  run (answering (.ok ())) (entered [7])
    [.enqueue (.v4 127 0 0 1 5000) [.make zoneType []], .flush ⟨0, 0⟩,
      .provide KeyStore.empty.provider]

theorem provider_rotated : rotated.relay.provider = KeyStore.empty.provider :=
  provider_run_provide (answering (.ok ())) (entered [7])
    [.enqueue (.v4 127 0 0 1 5000) [.make zoneType []], .flush ⟨0, 0⟩] KeyStore.empty.provider

/-- Its session has the next key, and waits for the client to use it. -/
theorem session?_rotated : ∃ session,
    rotated.relay.session? (.v4 127 0 0 1 5000) = some session ∧ session.status = .pending ∧
      session.current = .ofKey (Cipher.Key.ofText "secret").incremented := by
  obtain ⟨held, hheld, hcurrent, -⟩ := session?_entered
  have hwaiting : (run (answering (.ok ())) (entered [7])
      [.enqueue (.v4 127 0 0 1 5000) [.make zoneType []]]).relay.queues.waiting
        (.v4 127 0 0 1 5000) = [.make zoneType []] := by decide +kernel
  obtain ⟨bytes, hrotated⟩ := session?_run_zone (reachable_entered [7] _) hheld hwaiting rfl
    (by decide) KeyStore.empty.provider
  refine ⟨_, hrotated, rfl, ?_⟩
  rw [Session.rotateKey, Session.recordSent, hcurrent]
  rfl

/-! ### A datagram with a stream that cannot be read -/

/-- A datagram in the clear whose stream has a wrong first byte. -/
def misheaded : Bytes := (Header.mk 1 0 0).toBytes ++ sealed [2] 8

/-- That datagram under the next key. -/
def misheadedDatagram : Bytes :=
  (Header.mk 1 0 0).toBytes ++
    [9, 123, 214, 28, 236, 218, 178, 57, 55, 26, 228, 73, 221, 54, 235, 78, 246, 150, 118, 90, 243]

theorem encryptPacket_misheaded :
    (Cipher.Key.ofText "secret").incremented.schedule.encryptPacket headerSize misheaded =
      misheadedDatagram :=
  Cipher.Image.encryptPacket_key (by decide +kernel)

theorem openRegion_misheaded (book : Code.Book) (pool : BufferPool) :
    (Session.openRegion book pool misheaded).1 = .error .invalidHeader := by
  have hheader : Header.ofDatagram misheaded = .ok ⟨1, 0, 0⟩ := Header.ofDatagram_append _ _
  have hregion : compressedRegion misheaded = .ok ([2], 8) :=
    compressedRegion_sealed (Header.length_toBytes _) rfl
  have hbits : Code.dataBits [2] 8 = .error .invalidHeader := by decide
  simp only [Session.openRegion, hheader, hregion, Session.unpack, Code.Book.decompress, hbits]
  rfl

/-- A session with the next key opens that datagram, and then cannot read it. -/
theorem receive_misheaded {session : Session}
    (hcurrent : session.current = .ofKey (Cipher.Key.ofText "secret").incremented)
    (book : Code.Book) (pool : BufferPool) (now : Instant) :
    ∃ pool', session.receive book pool now misheadedDatagram =
      (.error .invalidHeader, session.confirmed, pool') := by
  have hverify : verifyChecksum misheaded = true :=
    verifyChecksum_sealed (Header.length_toBytes _) _ _
  have hdecrypt := session.decrypt_encryptPacket (by decide) hverify
  rw [hcurrent] at hdecrypt
  have hsealed : (KeyedCipher.ofKey (Cipher.Key.ofText "secret").incremented).schedule.encryptPacket
      headerSize misheaded = misheadedDatagram := encryptPacket_misheaded
  rw [hsealed] at hdecrypt
  rcases hopen : Session.openRegion book pool misheaded with ⟨result, pool'⟩
  have hresult := openRegion_misheaded book pool
  rw [hopen] at hresult
  obtain rfl : result = .error .invalidHeader := hresult
  refine ⟨pool', ?_⟩
  rw [Session.receive, if_neg (by decide)]
  simp only [hdecrypt, hopen]

/-- **The change of key is confirmed** although the datagram is rejected. -/
theorem handle_error_misheaded : ∃ session after,
    Reachable rotated.relay ∧
    rotated.relay.session? (.v4 127 0 0 1 5000) = some session ∧ session.status = .pending ∧
    perform (rotated.relay.handle (answering (.ok ())).outlets ⟨5, 0⟩ (.v4 127 0 0 1 5000)
      misheadedDatagram) [] = ((.error .invalidHeader, after), []) ∧
    Rejects rotated.relay (.v4 127 0 0 1 5000) misheadedDatagram .invalidHeader after ∧
    after.session? (.v4 127 0 0 1 5000) = some session.confirmed ∧
    Fault.invalidHeader.isFatal = false := by
  obtain ⟨session, hsession, hpending, hcurrent⟩ := session?_rotated
  have hclear : Login.parse? misheadedDatagram = .ok none := by
    have hdigest : verifyChecksum misheadedDatagram = false := by decide +kernel
    rw [Login.parse?, hdigest]
    rfl
  obtain ⟨pool', hreceive⟩ :=
    receive_misheaded hcurrent rotated.relay.book rotated.relay.scratch 5
  obtain ⟨after, haccept, hconfirmed⟩ := @accept_eq_error rotated.relay ⟨5, 0⟩
    (.v4 127 0 0 1 5000) misheadedDatagram session session.confirmed pool' .invalidHeader hsession
    hclear (by decide) hreceive
  have hperform := @perform_handle_error (answering (.ok ())) _ _ _ _ _ _ haccept []
  obtain ⟨-, hrejects, -, hstore⟩ := handle_error hperform fun _ _ => List.not_mem_nil
  exact ⟨session, after, reachable_entered [7] _, hsession, hpending, hperform, hrejects,
    hconfirmed, (hstore .empty provider_rotated).2.1⟩

end Relay

end ZoneRelay
