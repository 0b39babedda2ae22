import ZoneRelay.Proofs.Session.Acceptance
import ZoneRelay.Proofs.Session.Window

/-!
# A client that counts

A client numbers its sub-packets one after another, with a counter of 16 bits that wraps around.
The relay compares numbers as they are, and its own record of them never falls. **So the next number
is accepted up to the last one there is**, and not behind it.

| the client's number | the next one | what becomes of it |
|---|---|---|
| below `0xFFFF` | one above | forwarded, and the record moves there |
| `0xFFFF` | zero | skipped, the record stays |
| – (and the client goes on counting) | any | skipped, the record stays |

A datagram of the client is any that can be read under the session's key
(`ZoneRelay.Session.Sends`); whatever a client reads under a key, the relay reads as well
(`ZoneRelay.Session.receive_of_read`). A **turn** is such a datagram behind any operations that let
the client's number stand: packing and changes of key, but also logins and datagrams of the client
that come late or come again. A run of turns is served from the front, as many as there are numbers
left (`ZoneRelay.Session.counting_served`).
-/

namespace ZoneRelay

open ZoneRelay.Frame

/-! ### Reading on both sides -/

namespace Client

/-- **What there is to be read in a datagram**: its digest holds under the key, and behind its
header lies a stream that decompresses into the region. -/
theorem read_eq_ok {book : Code.Book} {key : Cipher.Key} {datagram : Bytes} {reading : Reading}
    (h : read book key datagram = .ok reading) :
    ∃ clear stream bitCount size buffer,
      key.schedule.decryptPacket headerSize datagram = clear ∧ verifyChecksum clear = true ∧
      Header.ofDatagram clear = .ok reading.header ∧
      compressedRegion clear = .ok (stream, bitCount) ∧
      book.decompress stream bitCount (Bytes.zeros maxDatagramSize) = (.ok size, buffer) ∧
      reading = .of reading.header (buffer.take size) := by
  simp only [read] at h
  split at h
  case isFalse => cases h
  case isTrue hverify =>
  rcases hheader : Header.ofDatagram (key.schedule.decryptPacket headerSize datagram) with
    fault | header
  · rw [hheader] at h
    cases h
  rcases hstream : compressedRegion (key.schedule.decryptPacket headerSize datagram) with
    fault | ⟨stream, bitCount⟩
  · rw [hheader, hstream] at h
    cases h
  rcases hread : book.decompress stream bitCount (Bytes.zeros maxDatagramSize) with
    ⟨fault | size, buffer⟩
  · rw [hheader, hstream] at h
    simp only [bind, Except.bind, hread] at h
    cases h
  · rw [hheader, hstream] at h
    simp only [bind, Except.bind, hread, pure, Except.pure] at h
    cases h
    exact ⟨_, stream, bitCount, size, buffer, rfl, hverify, hheader, hstream, hread, rfl⟩

end Client

namespace Session

theorem length_of_compressedRegion {clear stream : Bytes} {bitCount : UInt32}
    (h : compressedRegion clear = .ok (stream, bitCount)) : 48 ≤ clear.length := by
  by_contra hshort
  have htrailer : clear.length < headerSize + (bitCountSize + checksumSize) :=
    Nat.lt_of_not_le hshort
  simp only [compressedRegion, if_pos htrailer] at h
  cases h

/-- **Whatever can be read under the session's key, the relay reads**: the datagram confirms the
key, and its region is harvested. -/
theorem receive_of_read {book : Code.Book} {session : Session} (hkeyed : session.Keyed)
    {pool : BufferPool} (hpool : pool.size = maxDatagramSize) {datagram : Bytes}
    {reading : Client.Reading} (h : Client.read book session.current.key datagram = .ok reading)
    (now : Instant) :
    ∃ pool', session.receive book pool now datagram =
      (.ok (session.confirmed.receipt reading.header (.opened .current) reading.region
          (session.resendFor reading.header.ack)),
        (session.confirmed.harvest reading.header.sequence reading.region).2.touch now, pool') := by
  obtain ⟨clear, stream, bitCount, size, buffer, hclear, hverify, hheader, hstream, hread,
    hreading⟩ := Client.read_eq_ok h
  have hlong : 48 ≤ datagram.length := by
    rw [← Cipher.Schedule.length_decryptPacket session.current.key.schedule headerSize datagram,
      hclear]
    exact length_of_compressedRegion hstream
  have hdecipher : session.current.schedule.decryptPacket headerSize datagram = clear :=
    (congrArg (·.schedule.decryptPacket headerSize datagram) hkeyed.1).trans hclear
  have hdecrypt : session.decrypt datagram = (.ok (.current, clear), session.confirmed) := by
    have hnot : ¬ datagram.length ≤ headerSize := by
      rw [headerSize]
      omega
    rw [decrypt_eq, if_neg hnot, hdecipher]
    simp only [hverify, if_true]
    rfl
  have hscratch : pool.acquire.1 = Bytes.zeros maxDatagramSize := by
    rw [pool.acquire_fst, hpool]
  have hregion : reading.region = buffer.take size := by
    rw [hreading]
    rfl
  have hopen : openRegion book pool clear =
      (.ok (reading.header, reading.region), pool.acquire.2.release buffer) := by
    rw [openRegion, hheader, hstream]
    simp only [unpack, hscratch, hread, Except.map, hregion]
  exact ⟨_, receive_eq_ok now (by omega) hdecrypt hopen⟩

/-! ### One datagram -/

/-- **A client sends a sub-packet under a number**: its datagram can be read under the session's
key, holds that one sub-packet, which is no login request, and both carry the number. -/
structure Sends (book : Code.Book) (session : Session) (number : UInt16) (datagram : Bytes)
    (packet : SubPacket) : Prop where
  read : ∃ reading, Client.read book session.current.key datagram = .ok reading ∧
    reading.header.sequence = number ∧ reading.packets = [packet]
  kind_ne : packet.kind ≠ loginType
  sequence_eq : packet.sequence = number

/-- What a client sends to a session it sends to any with the same key. -/
theorem Sends.of_current {book : Code.Book} {session other : Session} {number : UInt16}
    {datagram : Bytes} {packet : SubPacket} (h : Sends book session number datagram packet)
    (hcurrent : other.current = session.current) : Sends book other number datagram packet :=
  ⟨hcurrent.symm ▸ h.read, h.kind_ne, h.sequence_eq⟩

/-- What becomes of a sub-packet that comes under a number: it is forwarded if the number is above
the client's, and the client's number moves there; else it is skipped and nothing moves. -/
structure Served (before after : Session) (number : UInt16) (packet : SubPacket)
    (receipt : Receipt) : Prop where
  sequence_eq : receipt.header.sequence = number
  forwarded : before.clientSequence < number →
    receipt.packets = [packet] ∧ receipt.skipped = 0 ∧ after.clientSequence = number
  skipped : ¬ before.clientSequence < number →
    receipt.packets = [] ∧ receipt.skipped = 1 ∧ after.clientSequence = before.clientSequence

/-- **The client's datagram is received**, whatever its number. -/
theorem receive_sends {book : Code.Book} {session : Session} (hkeyed : session.Keyed)
    {pool : BufferPool} (hpool : pool.size = maxDatagramSize) {number : UInt16} {datagram : Bytes}
    {packet : SubPacket} (h : Sends book session number datagram packet) (now : Instant) :
    ∃ receipt after pool', session.receive book pool now datagram = (.ok receipt, after, pool') ∧
      Served session after number packet receipt := by
  obtain ⟨reading, hread, hnumber, hpackets⟩ := h.read
  obtain ⟨pool', hreceive⟩ := receive_of_read hkeyed hpool hread now
  obtain ⟨clear, stream, bitCount, size, buffer, -, -, -, -, -, hreading⟩ := Client.read_eq_ok hread
  -- the one sub-packet of the reading is the only one of the region
  have hdemux : (demux reading.region).1.map (·.toSubPacket) = [packet] := by
    rw [← hpackets, hreading]
    rfl
  obtain ⟨raw, hraw, rfl⟩ := List.map_eq_singleton_iff.mp hdemux
  have hother : (raw.kind == loginType) = false := beq_false_of_ne h.kind_ne
  have haccepts : session.confirmed.accepts reading.header.sequence raw =
      decide (session.clientSequence < number) := by
    have hsequence : raw.sequence = number := h.sequence_eq
    rw [accepts, hother, Bool.false_or, inWindow, hsequence, hnumber,
      decide_eq_true (UInt16.le_refl number), Bool.and_true]
    rfl
  refine ⟨_, _, pool', hreceive, hnumber, fun hlt => ?_, fun hnot => ?_⟩
  · rw [decide_eq_true hlt] at haccepts
    rw [receipt, harvest_eq, hraw]
    simp only [List.filter_cons, haccepts, if_true, List.filter_nil, Bool.not_true,
      Bool.false_eq_true, if_false]
    refine ⟨rfl, rfl, ?_⟩
    rw [hnumber]
    exact if_pos (UInt16.le_of_lt hlt)
  · rw [decide_eq_false hnot] at haccepts
    rw [receipt, harvest_eq, hraw]
    simp only [List.filter_cons, haccepts, Bool.false_eq_true, if_false, List.filter_nil,
      Bool.not_false, if_true]
    exact ⟨rfl, rfl, rfl⟩

/-- **A datagram that comes again** lets the client's number stand. -/
theorem clientSequence_again {book : Code.Book} {session : Session} (h : Reachable book session)
    {pool : BufferPool} (hpool : pool.size = maxDatagramSize) {number : UInt16} {datagram : Bytes}
    {packet : SubPacket} (hsends : Sends book session number datagram packet) (now : Instant) :
    ((session.run book [.receive pool now datagram]).run book
        [.receive pool now datagram]).clientSequence =
      (session.run book [.receive pool now datagram]).clientSequence := by
  obtain ⟨receipt, after, pool', hreceive, hserved⟩ := receive_sends h.keyed hpool hsends now
  have hafter : session.run book [.receive pool now datagram] = after := by
    rw [run_cons, step_receive, hreceive]
    rfl
  have hreachable : Reachable book after := hafter ▸ h.run [.receive pool now datagram]
  have hcurrent : after.current = session.current := by
    have hother : ¬ ∃ limit timestamp waiting,
        Op.receive pool now datagram = .assemble limit timestamp waiting := by
      rintro ⟨limit, timestamp, waiting, hop⟩
      cases hop
    have hsame := (ciphers_step book session hother nofun).1
    rwa [step_receive, hreceive] at hsame
  obtain ⟨receipt', later, pool'', hreceive', hserved'⟩ :=
    receive_sends hreachable.keyed hpool (hsends.of_current hcurrent) now
  have hnot : ¬ after.clientSequence < number := by
    by_cases hlt : session.clientSequence < number
    · rw [(hserved.forwarded hlt).2.2]
      exact UInt16.lt_irrefl number
    · rwa [(hserved.skipped hlt).2.2]
  rw [hafter, run_cons, step_receive, hreceive']
  exact (hserved'.skipped hnot).2.2

/-- **A client finds such a datagram for any sub-packet** that fits into a frame: the one it writes
under the session's key. -/
theorem exists_sends {lengths : Code.Lengths} {book : Code.Book}
    (hbook : lengths.book = .ok book) {session : Session} (hkeyed : session.Keyed)
    (header : Header) (packet : SubPacket) (hsequence : packet.sequence = header.sequence)
    (hkind : packet.kind &&& typeMask ≠ loginType) (hpayload : packet.payload.length ≤ 504) :
    ∃ datagram, Client.datagram book session.current header [packet] = .ok datagram ∧
      Sends book session header.sequence datagram packet.delivered := by
  obtain ⟨other, hother, hencoder, hfaithful⟩ := lengths.exists_book
  obtain rfl : book = other := Except.ok.inj (hbook.symm.trans hother)
  have hshort : ∀ other ∈ [packet], other.frameLength ≤ maxFrameSize := by
    intro other hmem
    rw [List.mem_singleton.mp hmem]
    exact SubPacket.frameLength_le hpayload
  have hroom : (region [packet] ++ [0]).length ≤ maxDatagramSize := by
    have hregion := length_region_le hshort
    rw [maxFrameSize, List.length_singleton] at hregion
    rw [List.length_append, List.length_singleton, maxDatagramSize]
    omega
  have hcodes : ∀ b, (book.encoder.entry b).bits ≤ 32 := hencoder ▸ lengths.bits_entry_le
  obtain ⟨clear, hcarries, hdatagram⟩ :=
    Client.datagram_eq session.current header (Client.encode_small hcodes hroom)
  refine ⟨_, hdatagram, ⟨.of header (region [packet] ++ [0]), ?_, rfl, ?_⟩, hkind, hsequence⟩
  · have hcipher : session.current.schedule.encryptPacket headerSize clear =
        session.current.key.schedule.encryptPacket headerSize clear :=
      congrArg (·.schedule.encryptPacket headerSize clear) hkeyed.1
    rw [hcipher]
    exact hcarries.read_encryptPacket hfaithful hroom _
  · rw [Client.Reading.of, demux_region hshort front_zero]
    exact congrArg (· :: []) packet.toSubPacket_raw

/-! ### Turns -/

/-- **One turn of a client**: some operations, and then a datagram with one sub-packet. -/
structure Turn where
  between : List Op
  pool : BufferPool
  now : Instant
  datagram : Bytes
  packet : SubPacket

namespace Turn

/-- The client's datagram is received. -/
def op (turn : Turn) : Op := .receive turn.pool turn.now turn.datagram

/-- The operations of a turn. -/
def ops (turn : Turn) : List Op := turn.between ++ [turn.op]

end Turn

/-- **A client counts**: each turn is under the number behind the one before it, and its datagram
under the key that the session has by then. Behind `0xFFFF` the counter goes on at zero. What
happens between the client's datagrams may be anything that leaves the session's record of its
number as it was. -/
inductive Counting (book : Code.Book) : Session → UInt16 → List Turn → Prop where
  /-- The client may stop at any time. -/
  | nil (session : Session) (number : UInt16) : Counting book session number []
  /-- The next turn is under the next number. -/
  | cons {session : Session} {number : UInt16} {turn : Turn} {rest : List Turn}
    (stands : (session.run book turn.between).clientSequence = session.clientSequence)
    (size_eq : turn.pool.size = maxDatagramSize)
    (sends : Sends book (session.run book turn.between) (number + 1) turn.datagram turn.packet)
    (counting : Counting book (session.run book turn.ops) (number + 1) rest) :
    Counting book session number (turn :: rest)

/-- What the datagrams of the turns bring, without what else comes between them. -/
def brought (book : Code.Book) : Session → List Turn → List Receipt
  | _, [] => []
  | session, turn :: rest =>
    receipts book (session.run book turn.between) [turn.op] ++
      brought book (session.run book turn.ops) rest

/-- **The datagram of a turn brings one receipt**, that of its sub-packet. -/
theorem turn_served {book : Code.Book} {session : Session} (h : Reachable book session)
    {turn : Turn}
    (hstands : (session.run book turn.between).clientSequence = session.clientSequence)
    (hpool : turn.pool.size = maxDatagramSize) {number : UInt16}
    (hsends : Sends book (session.run book turn.between) number turn.datagram turn.packet) :
    ∃ receipt, receipts book (session.run book turn.between) [turn.op] = [receipt] ∧
      Served session (session.run book turn.ops) number turn.packet receipt := by
  obtain ⟨receipt, after, pool', hreceive, hserved⟩ :=
    receive_sends (h.run turn.between).keyed hpool hsends turn.now
  have hstep : (session.run book turn.between).step book turn.op =
      ⟨session.run book turn.between, turn.op, .received (.ok receipt), after⟩ := by
    rw [Turn.op, step_receive, hreceive]
  have hafter : session.run book turn.ops = after := by
    rw [Turn.ops, run_append, run_cons, hstep]
    rfl
  refine ⟨receipt, ?_, ?_⟩
  · rw [receipts, trace, hstep]
    rfl
  · rw [hafter]
    exact ⟨hserved.sequence_eq, fun hlt => hserved.forwarded (hstands.symm ▸ hlt),
      fun hnot => hstands ▸ hserved.skipped (hstands.symm ▸ hnot)⟩

/-! ### Turns with nothing else between them -/

/-- Operations that do not look at the client's number and bring nothing. -/
def Op.Quiet : Op → Prop
  | receive .. | receiveLogin .. | resync _ | advance _ => False
  | _ => True

/-- A quiet operation lets the client's number stand and brings nothing. -/
theorem quiet_step (book : Code.Book) (session : Session) {op : Op} (h : op.Quiet) :
    (session.step book op).after.clientSequence = session.clientSequence ∧
      (session.step book op).outcome.receipt? = none := by
  cases op with
  | assemble limit timestamp waiting =>
    rw [step_assemble]
    exact ⟨clientSequence_assemble book limit session timestamp waiting, rfl⟩
  | decrypt datagram =>
    rw [step, Op.apply]
    rcases session.decrypt_cases datagram with ⟨fault, h⟩ | ⟨clear, h⟩ | ⟨clear, h⟩ <;> rw [h] <;>
      exact ⟨rfl, rfl⟩
  | restartLogin =>
    rw [step, Op.apply, restartLogin]
    split <;> exact ⟨rfl, rfl⟩
  | rotateKey =>
    rw [step, Op.apply, rotateKey]
    exact ⟨rfl, rfl⟩
  | recordSent bytes => exact ⟨rfl, rfl⟩
  | touch now => exact ⟨rfl, rfl⟩
  | receive | receiveLogin | resync | advance => cases h

/-- So do any number of them. -/
theorem quiet_run (book : Code.Book) (session : Session) {ops : List Op}
    (h : ∀ op ∈ ops, op.Quiet) :
    (session.run book ops).clientSequence = session.clientSequence ∧
      receipts book session ops = [] := by
  induction ops generalizing session with
  | nil => exact ⟨rfl, rfl⟩
  | cons op rest ih =>
    obtain ⟨hnumber, hnone⟩ := quiet_step book session (h op List.mem_cons_self)
    obtain ⟨hrest, hsilent⟩ := ih _ fun other hmem => h other (List.mem_cons_of_mem _ hmem)
    refine ⟨hrest.trans hnumber, ?_⟩
    rw [receipts, trace, List.filterMap_cons, hnone]
    exact hsilent

/-- **With only quiet operations between them** the turns bring what their datagrams bring. -/
theorem receipts_of_quiet {book : Code.Book} {session : Session} {turns : List Turn}
    (h : ∀ turn ∈ turns, ∀ op ∈ turn.between, op.Quiet) :
    receipts book session (turns.flatMap Turn.ops) = brought book session turns := by
  induction turns generalizing session with
  | nil => rfl
  | cons turn rest ih =>
    obtain ⟨-, hsilent⟩ := quiet_run book session (h turn List.mem_cons_self)
    have hown : receipts book session turn.ops =
        receipts book (session.run book turn.between) [turn.op] := by
      rw [Turn.ops, receipts_append, hsilent, List.nil_append]
    rw [List.flatMap_cons, receipts_append, hown,
      ih fun later hmem => h later (List.mem_cons_of_mem _ hmem), brought]

/-! ### Runs -/

/-- The next number of a counter that has counted to `n` is above the client's just as long as it
has not wrapped. -/
theorem next_above_iff {clientSequence : UInt16} {n : Nat}
    (h : clientSequence.toNat = min n 65535) :
    clientSequence < UInt16.ofNat n + 1 ↔ n < 65535 := by
  rw [UInt16.lt_iff_toNat_lt, UInt16.toNat_add, UInt16.toNat_ofNat', h]
  simp only [UInt16.toNat_one]
  omega

/-- **A counter that has counted to `n` is served up to the last number there is.** -/
theorem counting_run {book : Code.Book} {session : Session} {number : UInt16} {turns : List Turn}
    (h : Counting book session number turns) (hreachable : Reachable book session) {n : Nat}
    (hnumber : number = UInt16.ofNat n) (hclient : session.clientSequence.toNat = min n 65535) :
    (brought book session turns).map (fun r => (r.packets, r.skipped)) =
        (turns.take (65535 - n)).map (fun turn => ([turn.packet], 0)) ++
          (turns.drop (65535 - n)).map (fun _ => ([], 1)) ∧
      (session.run book (turns.flatMap Turn.ops)).clientSequence.toNat =
        min (n + turns.length) 65535 := by
  induction h generalizing n with
  | nil session number => exact ⟨by rw [List.take_nil, List.drop_nil]; rfl, hclient⟩
  | @cons session number turn rest hstands hpool hsends hcounting ih =>
    obtain ⟨receipt, hreceipts, hserved⟩ := turn_served hreachable hstands hpool hsends
    have hnext : number + 1 = UInt16.ofNat (n + 1) := by
      rw [hnumber, UInt16.ofNat_add]
      rfl
    have habove : session.clientSequence < number + 1 ↔ n < 65535 := by
      rw [hnumber]
      exact next_above_iff hclient
    have hlength : n + (turn :: rest).length = n + 1 + rest.length := by
      rw [List.length_cons]
      omega
    rw [List.flatMap_cons, run_append, brought, hreceipts, List.map_append, List.map_cons, hlength]
    by_cases hlt : n < 65535
    · obtain ⟨hpackets, hskipped, hafter⟩ := hserved.forwarded (habove.mpr hlt)
      have hmoved : (session.run book turn.ops).clientSequence.toNat = min (n + 1) 65535 := by
        rw [hafter, hnext, UInt16.toNat_ofNat']
        omega
      obtain ⟨hrest, hlast⟩ := ih (hreachable.run turn.ops) hnext hmoved
      have hleft : 65535 - n = 65535 - (n + 1) + 1 := by omega
      refine ⟨?_, hlast⟩
      rw [hrest, hpackets, hskipped, hleft, List.take_succ_cons, List.drop_succ_cons, List.map_cons]
      rfl
    · -- the counter has wrapped, or does now: this turn is skipped, and so are all later ones
      obtain ⟨hpackets, hskipped, hafter⟩ := hserved.skipped fun h => hlt (habove.mp h)
      have hstays : (session.run book turn.ops).clientSequence.toNat = min (n + 1) 65535 := by
        rw [hafter, hclient]
        omega
      obtain ⟨hrest, hlast⟩ := ih (hreachable.run turn.ops) hnext hstays
      have hnone : 65535 - n = 0 := by omega
      have hnone' : 65535 - (n + 1) = 0 := by omega
      refine ⟨?_, hlast⟩
      rw [hrest, hpackets, hskipped, hnone, hnone', List.take_zero, List.drop_zero, List.take_zero,
        List.drop_zero, List.map_cons]
      rfl

/-! ### The main statement -/

/-- **A client that counts is served up to the last number there is.** Take any session that a run
can lead to.

* If its client's number is not `0xFFFF`, a datagram whose number is the next one, and whose only
  sub-packet has that number too and is no login request, has it forwarded, and the client's number
  moves there.
* A client that goes on counting from there, in any number of turns and with a counter that wraps,
  has its sub-packets forwarded one by one up to number `0xFFFF`; all behind that are skipped, and
  the client's number stays at `0xFFFF`. Between its datagrams anything may happen that lets its
  number stand; if it is only quiet operations, the whole run brings no more than that. -/
theorem counting_served {book : Code.Book} {session : Session} (h : Reachable book session) :
    (∀ (pool : BufferPool) (now : Instant) (datagram : Bytes) (packet : SubPacket),
      pool.size = maxDatagramSize → session.clientSequence ≠ 0xFFFF →
      Sends book session (session.clientSequence + 1) datagram packet →
      ∃ receipt after pool', session.receive book pool now datagram = (.ok receipt, after, pool') ∧
        receipt.packets = [packet] ∧ receipt.skipped = 0 ∧
        after.clientSequence = session.clientSequence + 1) ∧
      ∀ turns, Counting book session session.clientSequence turns →
        (brought book session turns).map (fun r => (r.packets, r.skipped)) =
            (turns.take (65535 - session.clientSequence.toNat)).map
                (fun turn => ([turn.packet], 0)) ++
              (turns.drop (65535 - session.clientSequence.toNat)).map (fun _ => ([], 1)) ∧
          (session.run book (turns.flatMap Turn.ops)).clientSequence.toNat =
            min (session.clientSequence.toNat + turns.length) 65535 ∧
          ((∀ turn ∈ turns, ∀ op ∈ turn.between, op.Quiet) →
            receipts book session (turns.flatMap Turn.ops) = brought book session turns) := by
  have hclient : session.clientSequence.toNat = min session.clientSequence.toNat 65535 :=
    (Nat.min_eq_left (Nat.le_of_lt_succ session.clientSequence.toNat_lt)).symm
  have hnumber : session.clientSequence = UInt16.ofNat session.clientSequence.toNat :=
    UInt16.ofNat_toNat.symm
  constructor
  · intro pool now datagram packet hpool hlast hsends
    obtain ⟨receipt, after, pool', hreceive, hserved⟩ := receive_sends h.keyed hpool hsends now
    have hlt : session.clientSequence.toNat ≠ 65535 := by
      intro heq
      exact hlast (UInt16.toNat_inj.mp heq)
    have habove : session.clientSequence < session.clientSequence + 1 := by
      have hiff := next_above_iff hclient
      rw [← hnumber] at hiff
      exact hiff.mpr (by omega)
    exact ⟨receipt, after, pool', hreceive, hserved.forwarded habove⟩
  · intro turns hcounting
    obtain ⟨hbrought, hlast⟩ := counting_run hcounting h hnumber hclient
    exact ⟨hbrought, hlast, receipts_of_quiet⟩

/-- The session of a client that has counted this far. -/
def countedTo (number : UInt16) : Session :=
  (start (.v4 127 0 0 1 5000) 7 (.ofText "secret") 0).resync number

theorem reachable_countedTo (book : Code.Book) (number : UInt16) :
    Reachable book (countedTo number) :=
  ⟨.v4 127 0 0 1 5000, 7, .ofText "secret", 0, [.resync number], rfl⟩

/-- A sub-packet under this number. -/
def numbered (number : UInt16) : SubPacket := ⟨0x15, number, [1, 2, 3, 4]⟩

/-- After its turn under number `0xFFFF` a client takes another one, behind anything that lets its
number stand. -/
theorem exists_wrapping {book : Code.Book} (hbook : Code.Lengths.standard.book = .ok book)
    {first : Bytes} (hfirst : Sends book (countedTo 0xFFFE) 0xFFFF first (numbered 0xFFFF))
    {between : List Op}
    (hstands : (((countedTo 0xFFFE).run book [.receive regionBuffers 1 first]).run book
        between).clientSequence =
      ((countedTo 0xFFFE).run book [.receive regionBuffers 1 first]).clientSequence) :
    ∃ second, Counting book (countedTo 0xFFFE) 0xFFFE
      [⟨[], regionBuffers, 1, first, numbered 0xFFFF⟩,
        ⟨between, regionBuffers, 2, second, numbered 0⟩] := by
  have hkeyed :=
    (((reachable_countedTo book 0xFFFE).run [.receive regionBuffers 1 first]).run between).keyed
  obtain ⟨second, -, hsecond⟩ := exists_sends hbook hkeyed ⟨0, 0, 0⟩ (numbered 0) rfl
    (by decide) (by decide)
  exact ⟨second, .cons rfl rfl hfirst (.cons hstands rfl hsecond (.nil _ _))⟩

/-- A client that has counted to `0xFFFE` is served once more. Then its counter wraps, and what it
sends after a change of key is skipped; and so it is if the datagram before that comes again in
between. -/
theorem counting_served_wrapping : ∃ book first turns again,
    Code.Lengths.standard.book = .ok book ∧ Reachable book (countedTo 0xFFFE) ∧
    Sends book (countedTo 0xFFFE) 0xFFFF first (numbered 0xFFFF) ∧
    (∃ receipt after pool',
      (countedTo 0xFFFE).receive book regionBuffers 1 first = (.ok receipt, after, pool') ∧
      receipt.packets = [numbered 0xFFFF] ∧ after.clientSequence = 0xFFFF) ∧
    Counting book (countedTo 0xFFFE) 0xFFFE turns ∧
    turns.map (fun turn => (turn.between, turn.packet)) =
      [([], numbered 0xFFFF), ([.rotateKey], numbered 0)] ∧
    (receipts book (countedTo 0xFFFE) (turns.flatMap Turn.ops)).map
      (fun r => (r.packets, r.skipped)) = [([numbered 0xFFFF], 0), ([], 1)] ∧
    ((countedTo 0xFFFE).run book (turns.flatMap Turn.ops)).clientSequence.toNat = 65535 ∧
    Counting book (countedTo 0xFFFE) 0xFFFE again ∧
    again.map (fun turn => (turn.between, turn.packet)) =
      [([], numbered 0xFFFF), ([.receive regionBuffers 1 first, .rotateKey], numbered 0)] ∧
    (brought book (countedTo 0xFFFE) again).map (fun r => (r.packets, r.skipped)) =
      [([numbered 0xFFFF], 0), ([], 1)] ∧
    ((countedTo 0xFFFE).run book (again.flatMap Turn.ops)).clientSequence.toNat = 65535 := by
  obtain ⟨book, hbook, -⟩ := Code.Lengths.standard.exists_book
  have hreachable := reachable_countedTo book 0xFFFE
  obtain ⟨first, -, hfirst⟩ := exists_sends hbook hreachable.keyed ⟨0xFFFF, 0, 0⟩
    (numbered 0xFFFF) rfl (by decide) (by decide)
  obtain ⟨hnext, hturns⟩ := counting_served hreachable
  obtain ⟨receipt, after, pool', hreceive, hpackets, -, hafter⟩ :=
    hnext regionBuffers 1 first _ rfl (by decide) hfirst
  have hquiet : ∀ op ∈ [Op.rotateKey], op.Quiet := by
    intro op hop
    rw [List.mem_singleton.mp hop]
    exact trivial
  obtain ⟨second, hcounting⟩ := exists_wrapping hbook hfirst (quiet_run book _ hquiet).1
  have hstands : (((countedTo 0xFFFE).run book [.receive regionBuffers 1 first]).run book
      [.receive regionBuffers 1 first, .rotateKey]).clientSequence =
        ((countedTo 0xFFFE).run book [.receive regionBuffers 1 first]).clientSequence := by
    have hsplit : [Op.receive regionBuffers 1 first, .rotateKey] =
        [.receive regionBuffers 1 first] ++ [.rotateKey] := rfl
    rw [hsplit, run_append, (quiet_run book _ hquiet).1]
    exact clientSequence_again hreachable rfl hfirst 1
  obtain ⟨late, hcounting'⟩ := exists_wrapping hbook hfirst hstands
  obtain ⟨hbrought, hlast, hreceipts⟩ := hturns _ hcounting
  obtain ⟨hbrought', hlast', -⟩ := hturns _ hcounting'
  have hall := hreceipts (by
    intro turn hturn op hop
    rcases List.mem_pair.mp hturn with rfl | rfl
    · cases hop
    · exact hquiet op hop)
  exact ⟨book, first, _, _, hbook, hreachable, hfirst, ⟨receipt, after, pool', hreceive, hpackets,
    hafter⟩, hcounting, rfl, (congrArg _ hall).trans hbrought, hlast, hcounting', rfl, hbrought',
    hlast'⟩

/-- **The number behind the last one is not accepted**: the client's next number is zero then, and
its datagram is read, but what it holds is skipped. -/
theorem wrapped_number_skipped : ∃ book datagram receipt after pool',
    Code.Lengths.standard.book = .ok book ∧ Reachable book (countedTo 0xFFFF) ∧
    (countedTo 0xFFFF).clientSequence + 1 = 0 ∧
    Sends book (countedTo 0xFFFF) 0 datagram (numbered 0) ∧
    (countedTo 0xFFFF).receive book regionBuffers 1 datagram = (.ok receipt, after, pool') ∧
    receipt.packets = [] ∧ receipt.skipped = 1 ∧ after.clientSequence = 0xFFFF := by
  obtain ⟨book, hbook, -⟩ := Code.Lengths.standard.exists_book
  have hreachable := reachable_countedTo book 0xFFFF
  have hpool : regionBuffers.size = maxDatagramSize := rfl
  obtain ⟨datagram, -, hsends⟩ := exists_sends hbook hreachable.keyed ⟨0, 0, 0⟩ (numbered 0) rfl
    (by decide) (by decide)
  obtain ⟨receipt, after, pool', hreceive, hserved⟩ :=
    receive_sends hreachable.keyed hpool hsends 1
  have hnot : ¬ (countedTo 0xFFFF).clientSequence < 0 := UInt16.not_lt_zero
  exact ⟨book, datagram, receipt, after, pool', hbook, hreachable, rfl, hsends, hreceive,
    hserved.skipped hnot⟩

end Session

end ZoneRelay
