import ZoneRelay.Proofs.Relay.Invariant
import ZoneRelay.Proofs.Session.Packing

/-!
# Flushing loses nothing

What waits for a client when the queues are emptied is cut into datagrams from the front, in
order. Each of them is written, until one cannot be: its packets stay with the session, which
sends it again on demand, and what is behind them goes back to the queue. **Nothing is lost and
nothing changes places** (`ZoneRelay.Relay.flush_conserves`), in any reachable state and whatever
the world answers.

| | statement | theorem |
|---|---|---|
| one datagram | is packed from the front, holds at least one packet, and is kept | `ZoneRelay.Relay.exists_packs` |
| a client | its datagrams are a chain, each packed by the session that the one before left | `ZoneRelay.Relay.Rounds.chain` |
| all clients | each has its chain, and does not touch those of the others | `ZoneRelay.Relay.perform_flushAll` |

That every datagram holds a packet comes from the queues: what is in them fits into a frame, and
a single frame fits into a datagram with any code that was loaded. So two ways in which a round
could go never are taken: none fails to pack, and none packs nothing.
-/

namespace ZoneRelay

open ZoneRelay.Frame (SubPacket)

namespace Relay

open World

/-! ### Datagrams of a flush -/

/-- A datagram of a flush. -/
structure Dispatch where
  /-- The session that packs it. -/
  sender : Session
  /-- What waits when it is packed. -/
  waiting : List SubPacket
  datagram : Session.Assembled
  /-- What the world answers. -/
  result : Except String Unit

namespace Dispatch

/-- The packets in the datagram. -/
def packets (dispatch : Dispatch) : List SubPacket :=
  dispatch.waiting.take dispatch.datagram.consumed

/-- The packets behind them. -/
def rest (dispatch : Dispatch) : List SubPacket :=
  dispatch.waiting.drop dispatch.datagram.consumed

/-- What is done to the world. -/
def effect (client : Address) (dispatch : Dispatch) : Effect :=
  .sent client dispatch.datagram.bytes dispatch.result

/-- **The datagram was packed from the front of what waits**: it holds some of it, at most as
many as the limit allows, under the session's key and number; and the session keeps it. -/
structure Packs (book : Code.Book) (limit : Nat) (timestamp : UInt32) (dispatch : Dispatch)
    (after : Session) : Prop where
  assemble_eq : dispatch.sender.assemble book limit timestamp dispatch.waiting =
    (.ok dispatch.datagram, after)
  consumed_pos : 0 < dispatch.datagram.consumed
  consumed_le : dispatch.datagram.consumed ≤ limit
  packed : ∃ clear,
    Session.Packed book dispatch.sender timestamp dispatch.waiting dispatch.datagram.consumed
      clear ∧
    dispatch.datagram.bytes =
      dispatch.sender.current.schedule.encryptPacket Frame.headerSize clear
  sequence_eq : dispatch.datagram.sequence = dispatch.sender.serverSequence
  next_eq : after.serverSequence = dispatch.sender.serverSequence + 1
  kept : after.lastSent = some ⟨dispatch.datagram.sequence, dispatch.datagram.bytes⟩
  address_eq : after.address = dispatch.sender.address

namespace Packs

variable {book : Code.Book} {limit : Nat} {timestamp : UInt32} {dispatch : Dispatch}
  {after : Session}

/-- The datagram holds as many packets as it takes. -/
theorem length_packets (h : Packs book limit timestamp dispatch after) :
    dispatch.packets.length = dispatch.datagram.consumed := by
  obtain ⟨clear, hpacked, -⟩ := h.packed
  rw [packets, List.length_take, Nat.min_eq_left hpacked.count_le]

end Packs

end Dispatch

/-- **Whatever waits, a datagram is packed from its front**, if all of it fits into frames and the
codes have at most 32 bits. -/
theorem exists_packs {book : Code.Book} (hcodes : ∀ b, (book.encoder.entry b).bits ≤ 32)
    {limit : Nat} (hlimit : 0 < limit) (session : Session) (timestamp : UInt32)
    {waiting : List SubPacket} (hwaiting : waiting ≠ [])
    (hshort : ∀ packet ∈ waiting, packet.frameLength ≤ Frame.maxFrameSize) :
    ∃ datagram after, ∀ result,
      Dispatch.Packs book limit timestamp ⟨session, waiting, datagram, result⟩ after := by
  obtain ⟨clear, count, bytes, zone, hpacked, hle, hpos, hbytes, -, hassemble⟩ :=
    Session.assemble_eq hcodes limit session timestamp hshort
  refine ⟨⟨bytes, session.serverSequence, count, zone⟩, _, fun result => ⟨hassemble,
    hpos hwaiting hlimit, hle, ⟨clear, hpacked, hbytes⟩, rfl, ?_, ?_, ?_⟩⟩
  · split <;> simp only [Session.rotateKey, Session.recordSent]
  · split <;> simp only [Session.rotateKey, Session.recordSent]
  · split <;> simp only [Session.rotateKey, Session.recordSent]

/-! ### Chains of datagrams -/

/-- **The datagrams of a client**, from its session and what waits, to what goes back and the
session afterwards. Each is packed by the session that the one before left, from what that one
left; only the last of them may be refused, and then the rest goes back. -/
inductive Chain (book : Code.Book) (limit : Nat) (timestamp : UInt32) :
    Session → List SubPacket → List Dispatch → List SubPacket → Session → Prop
  /-- Nothing waits. -/
  | emptied (session : Session) : Chain book limit timestamp session [] [] [] session
  /-- A datagram is refused. -/
  | refused {dispatch : Dispatch} {after : Session} {reason : String}
    (hpacks : dispatch.Packs book limit timestamp after) (hresult : dispatch.result = .error reason) :
    Chain book limit timestamp dispatch.sender dispatch.waiting [dispatch] dispatch.rest after
  /-- A datagram is written, and others follow. -/
  | taken {dispatch : Dispatch} {after last : Session} {dispatches : List Dispatch}
    {back : List SubPacket} (hpacks : dispatch.Packs book limit timestamp after)
    (hresult : dispatch.result = .ok ())
    (hnext : Chain book limit timestamp after dispatch.rest dispatches back last) :
    Chain book limit timestamp dispatch.sender dispatch.waiting (dispatch :: dispatches) back last

namespace Chain

variable {book : Code.Book} {limit : Nat} {timestamp : UInt32} {session last : Session}
  {waiting back : List SubPacket} {dispatches : List Dispatch}

/-- **Nothing is lost and nothing changes places.** -/
theorem flatMap_packets (h : Chain book limit timestamp session waiting dispatches back last) :
    waiting = dispatches.flatMap Dispatch.packets ++ back := by
  induction h with
  | emptied session => rfl
  | @refused dispatch after reason hpacks hresult =>
    rw [List.flatMap_singleton, Dispatch.packets, Dispatch.rest, List.take_append_drop]
  | @taken dispatch after last dispatches back hpacks hresult hnext ih =>
    rw [List.flatMap_cons, List.append_assoc, ← ih, Dispatch.packets, Dispatch.rest,
      List.take_append_drop]

/-- Every datagram was packed from the front. -/
theorem packs (h : Chain book limit timestamp session waiting dispatches back last) :
    ∀ dispatch ∈ dispatches, ∃ after, dispatch.Packs book limit timestamp after := by
  induction h with
  | emptied session => exact fun _ hmem => absurd hmem List.not_mem_nil
  | refused hpacks hresult =>
    intro found hfound
    rw [List.mem_singleton] at hfound
    exact hfound ▸ ⟨_, hpacks⟩
  | taken hpacks hresult hnext ih =>
    intro found hfound
    rcases List.mem_cons.mp hfound with rfl | hlater
    · exact ⟨_, hpacks⟩
    · exact ih found hlater

/-- **The datagrams are numbered one after another**, and the numbers wrap. -/
theorem sequence_eq (h : Chain book limit timestamp session waiting dispatches back last) {i : Nat}
    {dispatch : Dispatch} (hi : dispatches[i]? = some dispatch) :
    dispatch.datagram.sequence = session.serverSequence + UInt16.ofNat i := by
  induction h generalizing i with
  | emptied session => cases hi
  | refused hpacks hresult =>
    rcases i with _ | i
    · cases hi
      simp [hpacks.sequence_eq]
    · cases hi
  | taken hpacks hresult hnext ih =>
    rcases i with _ | i
    · cases hi
      simp [hpacks.sequence_eq]
    · rw [ih hi, hpacks.next_eq, UInt16.add_assoc, UInt16.ofNat_add, UInt16.add_comm 1]
      rfl

/-- **At most one datagram is refused, the last**, and that one is kept by the session. If none
is, nothing goes back. -/
theorem ending (h : Chain book limit timestamp session waiting dispatches back last) :
    (back = [] ∧ ∀ dispatch ∈ dispatches, dispatch.result = .ok ()) ∨
      ∃ taken refused reason, dispatches = taken ++ [refused] ∧
        (∀ dispatch ∈ taken, dispatch.result = .ok ()) ∧ refused.result = .error reason ∧
        last.lastSent = some ⟨refused.datagram.sequence, refused.datagram.bytes⟩ := by
  induction h with
  | emptied session => exact Or.inl ⟨rfl, fun _ hmem => absurd hmem List.not_mem_nil⟩
  | refused hpacks hresult =>
    exact Or.inr ⟨[], _, _, rfl, fun _ hmem => absurd hmem List.not_mem_nil, hresult, hpacks.kept⟩
  | @taken dispatch after last dispatches back hpacks hresult hnext ih =>
    have hmore : ∀ others : List Dispatch, (∀ other ∈ others, other.result = .ok ()) →
        ∀ other ∈ dispatch :: others, other.result = .ok () := fun others hothers other hmem =>
      (List.mem_cons.mp hmem).elim (fun heq => heq ▸ hresult) (hothers other)
    rcases ih with ⟨hback, hall⟩ | ⟨taken, refused, reason, rfl, hall, hreason, hkept⟩
    · exact Or.inl ⟨hback, hmore dispatches hall⟩
    · exact Or.inr ⟨dispatch :: taken, refused, reason, rfl, hmore taken hall, hreason, hkept⟩

/-- Where nothing waits the session stays as it is. -/
theorem eq_of_nil (h : Chain book limit timestamp session [] dispatches back last) :
    last = session := by
  generalize hwaiting : [] = waiting at h
  have hnone : ∀ {dispatch : Dispatch} {after : Session},
      dispatch.Packs book limit timestamp after → [] ≠ dispatch.waiting := by
    intro dispatch after hpacks heq
    have hlength := hpacks.length_packets
    rw [Dispatch.packets, ← heq, List.take_nil] at hlength
    exact hpacks.consumed_pos.ne hlength
  cases h with
  | emptied => rfl
  | refused hpacks hresult => exact absurd hwaiting (hnone hpacks)
  | taken hpacks hresult hnext => exact absurd hwaiting (hnone hpacks)

/-- A packet that waits alone is packed once. -/
theorem assemble_singleton {packet : SubPacket}
    (h : Chain book limit timestamp session [packet] dispatches back last) :
    ∃ datagram, session.assemble book limit timestamp [packet] = (.ok datagram, last) := by
  generalize hwaiting : [packet] = waiting at h ⊢
  cases h with
  | emptied => cases hwaiting
  | refused hpacks hresult => exact ⟨_, hpacks.assemble_eq⟩
  | @taken dispatch after _ _ _ hpacks hresult hnext =>
    have hrest : dispatch.rest = [] := by
      rw [Dispatch.rest, ← hwaiting]
      exact List.drop_of_length_le hpacks.consumed_pos
    rw [hrest] at hnext
    exact ⟨_, hnext.eq_of_nil ▸ hpacks.assemble_eq⟩

end Chain

/-! ### One client -/

/-- The limit of packets in a datagram is never zero. -/
theorem packetLimit_pos (relay : Relay) : 0 < relay.packetLimit := by
  rw [packetLimit, Session.clampLimit]
  omega

/-- **Packing for a client succeeds**, and stores only the client's session. -/
theorem exists_assemble {relay : Relay} (hcodes : ∀ b, (relay.book.encoder.entry b).bits ≤ 32)
    (clock : Clock) {client : Address} {session : Session}
    (hsession : relay.session? client = some session) {packets : List SubPacket}
    (hpackets : packets ≠ [])
    (hshort : ∀ packet ∈ packets, packet.frameLength ≤ Frame.maxFrameSize) :
    ∃ datagram stored, relay.assemble clock session packets = (.ok datagram, relay.store stored) ∧
      (∀ result, Dispatch.Packs relay.book relay.packetLimit clock.timestamp
        ⟨session, packets, datagram, result⟩ stored) ∧
      ∀ other, (relay.store stored).session? other =
        if other = client then some stored else relay.session? other := by
  obtain ⟨datagram, stored, hpacks⟩ :=
    exists_packs hcodes relay.packetLimit_pos session clock.timestamp hpackets hshort
  have haddress : stored.address = client :=
    (hpacks (.ok ())).address_eq.trans (SessionTable.address_of_get? hsession)
  refine ⟨datagram, stored, ?_, hpacks, session?_store hsession haddress⟩
  rw [assemble, (hpacks (.ok ())).assemble_eq]

/-- Noting a change of key only counts it. -/
theorem noteRotation_eq (relay : Relay) (datagram : Session.Assembled) :
    relay.noteRotation datagram =
      { relay with metrics := (relay.noteRotation datagram).metrics } := by
  rw [noteRotation]
  split <;> rfl

/-- **The rounds of a client are a chain of datagrams**, if what waits fits into frames, the codes
have at most 32 bits, and nothing else is in the queue. What is not in a datagram is in the queue
afterwards, and nobody else is touched. -/
theorem Rounds.chain {world : World} {clock : Clock} {client : Address} {relay after : Relay}
    {journal journal' : Journal} {packets : List SubPacket} {sent : Nat} {session : Session}
    (hrounds : Rounds world clock client relay journal packets sent after journal')
    (hcodes : ∀ b, (relay.book.encoder.entry b).bits ≤ 32)
    (hsession : relay.session? client = some session)
    (hshort : ∀ packet ∈ packets, packet.frameLength ≤ Frame.maxFrameSize)
    (hempty : relay.queues.waiting client = [])
    (hlimit : packets.length ≤ relay.config.outbound.backlogLimit) :
    ∃ dispatches back last,
      Chain relay.book relay.packetLimit clock.timestamp session packets dispatches back last ∧
      journal' = journal ++ dispatches.map (Dispatch.effect client) ∧
      world.Answers journal (dispatches.map (Dispatch.effect client)) ∧
      sent = (dispatches.map (Dispatch.effect client)).countP Effect.delivers ∧
      after.session? client = some last ∧ after.queues.waiting client = back ∧
      ∀ other, other ≠ client → after.session? other = relay.session? other ∧
        after.queues.waiting other = relay.queues.waiting other := by
  induction hrounds generalizing session with
  | emptied relay journal =>
    exact ⟨[], [], session, .emptied session, (List.append_nil _).symm, .nil, rfl, hsession, hempty,
      fun _ _ => ⟨rfl, rfl⟩⟩
  | absent journal hnone =>
    rw [hnone] at hsession
    cases hsession
  | unpacked journal hpackets hfound hassemble =>
    -- packing would have succeeded
    obtain ⟨datagram, stored, hpacked, -⟩ := exists_assemble hcodes clock hfound hpackets hshort
    rw [hpacked] at hassemble
    cases hassemble
  | stalled journal hpackets hfound hassemble hconsumed =>
    -- there would be a packet in the datagram
    obtain ⟨datagram, stored, hpacked, hpacks, -⟩ :=
      exists_assemble hcodes clock hfound hpackets hshort
    rw [hpacked] at hassemble
    cases hassemble
    exact absurd hconsumed (hpacks (.ok ())).consumed_pos.ne'
  | @refused relay after packets found datagram journal reason hpackets hfound hassemble hconsumed
      hsend =>
    obtain ⟨_, stored, hpacked, hpacks, hsessions⟩ :=
      exists_assemble hcodes clock hfound hpackets hshort
    obtain rfl : found = session := Option.some.inj (hfound.symm.trans hsession)
    rw [hpacked] at hassemble
    cases hassemble
    have hanswered : Effect.AnsweredBy world journal
        (.sent client datagram.bytes (.error reason)) := hsend.symm
    have hback : (packets.drop datagram.consumed).length ≤
        relay.config.outbound.backlogLimit := by
      rw [List.length_drop]
      omega
    have hroom : (relay.queues.waiting client).length ≤ relay.config.outbound.backlogLimit := by
      rw [hempty]
      exact Nat.zero_le _
    have hwaiting := relay.queues.waiting_putBack hroom (packets.drop datagram.consumed)
    rw [hempty, List.append_nil, List.take_of_length_le hback] at hwaiting
    rw [noteRotation_eq]
    refine ⟨[⟨found, packets, datagram, .error reason⟩], _, stored, .refused (hpacks _) rfl, rfl,
      .singleton hanswered, rfl, (hsessions client).trans (if_pos rfl),
      (hwaiting client).trans (if_pos rfl), fun other hother => ⟨?_, ?_⟩⟩
    · exact (hsessions other).trans (if_neg hother)
    · exact (hwaiting other).trans (if_neg hother)
  | @taken relay after last packets found datagram journal journal' sent hpackets hfound hassemble
      hconsumed hsend hrest ih =>
    obtain ⟨_, stored, hpacked, hpacks, hsessions⟩ :=
      exists_assemble hcodes clock hfound hpackets hshort
    obtain rfl : found = session := Option.some.inj (hfound.symm.trans hsession)
    rw [hpacked] at hassemble
    cases hassemble
    have hanswered : Effect.AnsweredBy world journal (.sent client datagram.bytes (.ok ())) :=
      hsend.symm
    -- the next round starts from the stored session and other counters
    obtain ⟨metrics, hready⟩ : ∃ metrics, ((relay.store stored).noteRotation datagram).count
        (·.datagramSent datagram.bytes.length.toUInt64) = { relay.store stored with metrics } :=
      ⟨_, by rw [noteRotation_eq]; rfl⟩
    rw [hready] at ih
    obtain ⟨dispatches, back, final, hchain, hjournal, hanswers, hsent, hfinal, hqueue,
      hothers⟩ := ih hcodes ((hsessions client).trans (if_pos rfl))
        (fun packet hmem => hshort packet (List.mem_of_mem_drop hmem)) hempty
        (Nat.le_trans (by rw [List.length_drop]; omega) hlimit)
    refine ⟨⟨found, packets, datagram, .ok ()⟩ :: dispatches, back, final,
      .taken (hpacks _) rfl hchain, ?_, (World.Answers.singleton hanswered).append hanswers, ?_,
      hfinal, hqueue, fun other hother => ⟨?_, ?_⟩⟩
    · rw [hjournal, List.map_cons, List.append_assoc]
      rfl
    · rw [List.map_cons, List.countP_cons, hsent]
      rfl
    · exact (hothers other hother).1.trans ((hsessions other).trans (if_neg hother))
    · exact (hothers other hother).2

/-! ### All clients -/

/-- **A client that is not touched**: its session and its queue are as before, and nothing is
written to it. -/
structure Untouched (client : Address) (before after : Relay) (effects : List Effect) : Prop where
  session_eq : after.session? client = before.session? client
  waiting_eq : after.queues.waiting client = before.queues.waiting client
  silent : effects.filter (Effect.isTo client) = []

/-- **A client that is flushed**: what is written to it is a chain of datagrams from what waited,
and what is not in one of them is in its queue afterwards. -/
def Flushed (clock : Clock) (before after : Relay) (effects : List Effect) (client : Address)
    (packets : List SubPacket) : Prop :=
  ∃ session dispatches back last, before.session? client = some session ∧
    Chain before.book before.packetLimit clock.timestamp session packets dispatches back last ∧
    effects.filter (Effect.isTo client) = dispatches.map (Dispatch.effect client) ∧
    after.session? client = some last ∧ after.queues.waiting client = back

/-- Everything that is written to a client is for it. -/
theorem filter_isTo_effects (client other : Address) (dispatches : List Dispatch) :
    (dispatches.map (Dispatch.effect client)).filter (Effect.isTo other) =
      if client = other then dispatches.map (Dispatch.effect client) else [] := by
  by_cases hother : client = other
  · rw [if_pos hother, List.filter_eq_self]
    rintro effect hmem
    obtain ⟨dispatch, -, rfl⟩ := List.mem_map.mp hmem
    exact decide_eq_true hother
  · rw [if_neg hother, List.filter_eq_nil_iff]
    rintro effect hmem
    obtain ⟨dispatch, -, rfl⟩ := List.mem_map.mp hmem
    simpa [Dispatch.effect, Effect.isTo] using hother

/-- Writing datagrams offers nothing to the bus. -/
theorem filterMap_offered?_effects (client : Address) (dispatches : List Dispatch) :
    (dispatches.map (Dispatch.effect client)).filterMap Effect.offered? = [] := by
  rw [List.filterMap_map, List.filterMap_eq_nil_iff]
  exact fun _ _ => rfl

/-- Two changes that do not touch a client. -/
theorem Untouched.trans {client : Address} {a b c : Relay} {first second : List Effect}
    (hab : Untouched client a b first) (hbc : Untouched client b c second) :
    Untouched client a c (first ++ second) where
  session_eq := hbc.session_eq.trans hab.session_eq
  waiting_eq := hbc.waiting_eq.trans hab.waiting_eq
  silent := by rw [List.filter_append, hab.silent, hbc.silent, List.append_nil]

/-- A client may be left alone before it is flushed. -/
theorem Flushed.of_untouched {clock : Clock} {client : Address} {before between after : Relay}
    {first second : List Effect} {packets : List SubPacket}
    (h : Flushed clock between after second client packets)
    (huntouched : Untouched client before between first)
    (hregister : between.register = before.register) :
    Flushed clock before after (first ++ second) client packets := by
  obtain ⟨session, dispatches, back, last, hsession, hchain, heffects, hlast, hback⟩ := h
  have hbook : between.book = before.book := congrArg Register.book hregister
  have hconfig : between.config = before.config := congrArg Register.config hregister
  rw [hbook, packetLimit, hconfig] at hchain
  refine ⟨session, dispatches, back, last, huntouched.session_eq ▸ hsession, hchain, ?_, hlast,
    hback⟩
  rw [List.filter_append, huntouched.silent, List.nil_append, heffects]

/-- **Flushing clients one after another**: each has its own chain of datagrams, and does not
touch the others. -/
theorem perform_flushAll (world : World) (clock : Clock) {relay : Relay}
    (hcodes : ∀ b, (relay.book.encoder.entry b).bits ≤ 32)
    {pending : List (Address × List SubPacket)} (hnodup : (pending.map (·.1)).Nodup)
    (hpending : ∀ entry ∈ pending, (relay.session? entry.1).isSome ∧
      relay.queues.waiting entry.1 = [] ∧
      Queues.Fits relay.config.outbound.backlogLimit entry.2)
    (journal : Journal) :
    ∃ effects after,
      perform (relay.flushAll world.outlets clock pending) journal =
        ((effects.countP Effect.delivers, after), journal ++ effects) ∧
      world.Answers journal effects ∧ effects.filterMap Effect.offered? = [] ∧
      (∀ entry ∈ pending, Flushed clock relay after effects entry.1 entry.2) ∧
      ∀ client, client ∉ pending.map (·.1) → Untouched client relay after effects := by
  induction pending generalizing relay journal with
  | nil =>
    exact ⟨[], relay, by rw [List.append_nil]; rfl, .nil, rfl, nofun, fun _ _ => ⟨rfl, rfl, rfl⟩⟩
  | cons entry rest ih =>
    obtain ⟨client, packets⟩ := entry
    rw [List.map_cons, List.nodup_cons] at hnodup
    obtain ⟨hfirst, hrest⟩ := hnodup
    obtain ⟨hlive, hempty, hfits⟩ := hpending (client, packets) List.mem_cons_self
    obtain ⟨session, hsession⟩ := Option.isSome_iff_exists.mp hlive
    rcases hclient : perform (relay.flushClient world.outlets clock client packets) journal with
      ⟨⟨sent, between⟩, journal'⟩
    have hrounds : Rounds world clock client relay journal packets sent between journal' := by
      have hall := rounds_flushClient world clock client relay packets journal
      rwa [hclient] at hall
    have hregister := hrounds.register_eq
    obtain ⟨dispatches, back, last, hchain, hjournal, hanswered, hsent, hlast, hback, hothers⟩ :=
      hrounds.chain hcodes hsession hfits.short hempty hfits.length_le
    have hother : ∀ other, other ≠ client → Untouched other relay between
        (dispatches.map (Dispatch.effect client)) := fun other hne =>
      ⟨(hothers other hne).1, (hothers other hne).2,
        (filter_isTo_effects client other dispatches).trans (if_neg hne.symm)⟩
    have hne : ∀ entry ∈ rest, entry.1 ≠ client := fun entry hmem heq =>
      hfirst (heq ▸ List.mem_map.mpr ⟨entry, hmem, rfl⟩)
    have hbook : between.book = relay.book := congrArg Register.book hregister
    have hconfig : between.config = relay.config := congrArg Register.config hregister
    obtain ⟨effects, after, hperform, hanswers, hoffered, hflushed, huntouched⟩ :=
      ih (hbook ▸ hcodes) hrest (fun entry hmem => by
        have hsame := hother entry.1 (hne entry hmem)
        rw [hsame.session_eq, hsame.waiting_eq, hconfig]
        exact hpending entry (List.mem_cons_of_mem _ hmem)) journal'
    have hafter := huntouched client hfirst
    refine ⟨dispatches.map (Dispatch.effect client) ++ effects, after, ?_,
      hanswered.append (hjournal ▸ hanswers), ?_, ?_, ?_⟩
    · rw [perform_flushAll_some world hsession hclient hperform, hjournal, hsent,
        List.countP_append, List.append_assoc]
    · rw [List.filterMap_append, filterMap_offered?_effects, hoffered, List.append_nil]
    · intro entry hmem
      rcases List.mem_cons.mp hmem with rfl | hlater
      · refine ⟨session, dispatches, back, last, hsession, hchain, ?_,
          hafter.session_eq.trans hlast, hafter.waiting_eq.trans hback⟩
        rw [List.filter_append, filter_isTo_effects, if_pos rfl, hafter.silent, List.append_nil]
      · exact (hflushed entry hlater).of_untouched (hother entry.1 (hne entry hlater)) hregister
    · intro other hmem
      rw [List.map_cons, List.mem_cons, not_or] at hmem
      exact (hother other hmem.1).trans (huntouched other hmem.2)

/-! ### The main statement -/

/-- A reachable relay is in order, and its code was loaded. -/
theorem Reachable.sound {relay : Relay} (h : Reachable relay) :
    ∃ config book operations gone, book.Loaded ∧ Sound config book operations gone relay := by
  obtain ⟨config, book, provider, adjustment, world, ops, hloaded, rfl⟩ := h
  exact ⟨config, book, _, _, hloaded,
    sound_run (Sound.fresh config book provider adjustment) world ops⟩

/-- **Emptying the queues of a reachable relay** flushes each client for which something waits,
and leaves the others alone. -/
theorem perform_flush {relay : Relay} (h : Reachable relay) (world : World) (clock : Clock)
    (journal : Journal) :
    ∃ effects after,
      perform (relay.flush world.outlets clock) journal =
        ((effects.countP Effect.delivers, after), journal ++ effects) ∧
      world.Answers journal effects ∧ effects.filterMap Effect.offered? = [] ∧
      ∀ client,
        relay.queues.waiting client = [] ∧
            Untouched client { relay with queues := relay.queues.drain.2 } after effects ∨
          Flushed clock relay after effects client (relay.queues.waiting client) := by
  obtain ⟨config, book, operations, gone, hloaded, hbalanced, horderly⟩ := h.sound
  have hbook : relay.book = book := hbalanced.book_eq
  have hcodes : ∀ b, (relay.book.encoder.entry b).bits ≤ 32 := hbook ▸ hloaded.bits_le
  have hconfig : relay.config = config := hbalanced.config_eq
  have hdistinct := horderly.distinct
  have hpending : ∀ entry ∈ relay.queues.drain.1,
      (relay.session? entry.1).isSome ∧ relay.queues.drain.2.waiting entry.1 = [] ∧
        Queues.Fits relay.config.outbound.backlogLimit entry.2 := by
    intro entry hmem
    have hqueue := ((Queues.mem_drain hdistinct).mp hmem).1
    exact ⟨SessionTable.isSome_get?_iff.mpr (horderly.live entry.1 entry.2 hqueue),
      relay.queues.waiting_drain entry.1, hconfig ▸ horderly.fits entry.1 entry.2 hqueue⟩
  obtain ⟨effects, after, hperform, hanswers, hoffered, hflushed, huntouched⟩ :=
    @perform_flushAll world clock { relay with queues := relay.queues.drain.2 } hcodes
      relay.queues.drain.1 (Queues.nodup_drain hdistinct) hpending journal
  refine ⟨effects, after, hperform, hanswers, hoffered, fun client => ?_⟩
  by_cases hwaiting : relay.queues.waiting client = []
  · have hmissing : client ∉ relay.queues.drain.1.map (·.1) := by
      intro hmem
      obtain ⟨⟨other, packets⟩, hentry, rfl⟩ := List.mem_map.mp hmem
      obtain ⟨hqueue, hpackets⟩ := (Queues.mem_drain hdistinct).mp hentry
      rw [Queues.waiting, hqueue] at hwaiting
      exact hpackets hwaiting
    exact Or.inl ⟨hwaiting, huntouched client hmissing⟩
  · exact Or.inr (hflushed _ (Queues.mem_drain_waiting hdistinct hwaiting))

/-- In an accepted configuration the limit of packets is the configured one. -/
theorem packetLimit_le {relay : Relay} (h : relay.config.check = .ok ()) :
    relay.packetLimit ≤ relay.config.outbound.maxSubPackets := by
  have hpos : relay.config.outbound.maxSubPackets ≠ 0 := by
    intro hzero
    refine not_mem_problems h (.subPacketLimit 0) ?_
    simp [Config.problems, Config.Outbound.problems, Config.report, hzero]
  rw [packetLimit, Session.clampLimit]
  omega

/-- **Flushing loses nothing.** Take any relay that a run can lead to, and empty its queues in any
world. Nothing but datagrams goes out, each is answered by the world, and the number that comes
out is that of the datagrams that were taken. For each client

* what waited is what its datagrams hold, one after another and in order, and behind that what
  waits afterwards;
* all of its datagrams were taken and nothing waits afterwards; or all but the last were taken,
  and that one is kept by the client's session, byte for byte;
* each datagram holds at least one packet and at most as many as the limit allows. It is what
  packing gave, which never failed and never took nothing; it carries just its packets, all under
  its own number, enciphered with the key of the session that packed it;
* the first has the number of the client's session, and each of the others the next;
* they are a chain from that session to the one afterwards: each is packed by the session that
  the one before left, from what that one left, and nothing else is tried. -/
theorem flush_conserves {relay : Relay} (h : Reachable relay) (world : World) (clock : Clock)
    (journal : Journal) :
    ∃ effects after,
      perform (relay.flush world.outlets clock) journal =
        ((effects.countP Effect.delivers, after), journal ++ effects) ∧
      world.Answers journal effects ∧ effects.filterMap Effect.offered? = [] ∧
      ∀ client, ∃ dispatches back,
        effects.filter (Effect.isTo client) = dispatches.map (Dispatch.effect client) ∧
        relay.queues.waiting client = dispatches.flatMap Dispatch.packets ++ back ∧
        after.queues.waiting client = back ∧
        ((back = [] ∧ ∀ dispatch ∈ dispatches, dispatch.result = .ok ()) ∨
          ∃ taken refused reason session, dispatches = taken ++ [refused] ∧
            (∀ dispatch ∈ taken, dispatch.result = .ok ()) ∧ refused.result = .error reason ∧
            after.session? client = some session ∧
            session.lastSent = some ⟨refused.datagram.sequence, refused.datagram.bytes⟩) ∧
        (∀ dispatch ∈ dispatches,
          (dispatch.sender.assemble relay.book relay.packetLimit clock.timestamp
            dispatch.waiting).1 = .ok dispatch.datagram ∧
          dispatch.datagram.consumed ≠ 0 ∧
          0 < dispatch.packets.length ∧ dispatch.packets.length ≤ relay.packetLimit ∧
          (relay.config.check = .ok () →
            dispatch.packets.length ≤ relay.config.outbound.maxSubPackets) ∧
          ∃ clear,
            Client.Carries relay.book
              ⟨dispatch.datagram.sequence, dispatch.sender.clientSequence, clock.timestamp⟩
              (Frame.region (dispatch.packets.map (·.stamped dispatch.datagram.sequence)) ++ [0])
              clear ∧
            dispatch.datagram.bytes =
              dispatch.sender.current.schedule.encryptPacket Frame.headerSize clear) ∧
        (∀ i dispatch, dispatches[i]? = some dispatch → ∃ session,
          relay.session? client = some session ∧
          dispatch.datagram.sequence = session.serverSequence + UInt16.ofNat i) ∧
        ∀ session, relay.session? client = some session → ∃ last,
          after.session? client = some last ∧
          Chain relay.book relay.packetLimit clock.timestamp session
            (relay.queues.waiting client) dispatches back last := by
  obtain ⟨effects, after, hperform, hanswers, hoffered, hclients⟩ :=
    perform_flush h world clock journal
  refine ⟨effects, after, hperform, hanswers, hoffered, fun client => ?_⟩
  rcases hclients client with ⟨hwaiting, huntouched⟩ |
    ⟨session, dispatches, back, last, hsession, hchain, heffects, hlast, hback⟩
  · refine ⟨[], [], huntouched.silent, hwaiting,
      huntouched.waiting_eq.trans (relay.queues.waiting_drain client),
      Or.inl ⟨rfl, fun _ hmem => absurd hmem List.not_mem_nil⟩,
      fun _ hmem => absurd hmem List.not_mem_nil, fun _ _ hi => absurd hi (by simp),
      fun session hsession => ?_⟩
    rw [hwaiting]
    exact ⟨session, huntouched.session_eq.trans hsession, .emptied session⟩
  · refine ⟨dispatches, back, heffects, hchain.flatMap_packets, hback, ?_, fun dispatch hmem => ?_,
      fun i dispatch hi => ⟨session, hsession, hchain.sequence_eq hi⟩, fun found hfound => ?_⟩
    · rcases hchain.ending with hall | ⟨taken, refused, reason, hsplit, htaken, hreason, hkept⟩
      · exact Or.inl hall
      · exact Or.inr ⟨taken, refused, reason, last, hsplit, htaken, hreason, hlast, hkept⟩
    · obtain ⟨next, hpacks⟩ := hchain.packs dispatch hmem
      have hle := hpacks.length_packets ▸ hpacks.consumed_le
      obtain ⟨clear, hpacked, hbytes⟩ := hpacks.packed
      refine ⟨by rw [hpacks.assemble_eq], hpacks.consumed_pos.ne',
        hpacks.length_packets ▸ hpacks.consumed_pos, hle,
        fun hcheck => Nat.le_trans hle (packetLimit_le hcheck), clear, ?_, hbytes⟩
      rw [hpacks.sequence_eq]
      exact hpacked.carries
    · obtain rfl : session = found := Option.some.inj (hsession.symm.trans hfound)
      exact ⟨last, hlast, hchain⟩

/-! ### A world that takes one datagram -/

/-- A world that takes the first datagram and refuses what follows. -/
def takingOne : World where
  send journal _ _ := if journal.isEmpty then .ok () else .error "refused"
  publish _ _ := .ok ()

/-- **Where more waits than two datagrams hold, and only the first is taken**, there is a second
one, which is refused, and something goes back. -/
theorem exists_pair_of_takingOne {client : Address} {dispatches : List Dispatch}
    {back : List SubPacket} {limit : Nat}
    (hanswers : takingOne.Answers [] (dispatches.map (Dispatch.effect client)))
    (hmany : 2 * limit < (dispatches.flatMap Dispatch.packets ++ back).length)
    (hle : ∀ dispatch ∈ dispatches, dispatch.packets.length ≤ limit)
    (hending : (back = [] ∧ ∀ dispatch ∈ dispatches, dispatch.result = .ok ()) ∨
      ∃ taken refused reason, dispatches = taken ++ [refused] ∧
        (∀ dispatch ∈ taken, dispatch.result = .ok ()) ∧ refused.result = .error reason) :
    ∃ first second, dispatches = [first, second] ∧ first.result = .ok () ∧
      second.result = .error "refused" ∧ back ≠ [] := by
  rcases dispatches with _ | ⟨first, _ | ⟨second, later⟩⟩
  · rcases hending with ⟨rfl, -⟩ | ⟨taken, refused, reason, hsplit, -⟩
    · simp at hmany
    · simp at hsplit
  · have hfirst : first.result = .ok () := hanswers 0 _ rfl
    rcases hending with ⟨rfl, -⟩ | ⟨taken, refused, reason, hsplit, -, hreason⟩
    · have := hle first List.mem_cons_self
      simp at hmany
      omega
    · obtain ⟨rfl, rfl⟩ : taken = [] ∧ first = refused := by
        rcases taken with _ | ⟨other, taken⟩ <;> simp_all
      rw [hfirst] at hreason
      cases hreason
  · have hfirst : first.result = .ok () := hanswers 0 _ rfl
    have hsecond : second.result = .error "refused" := hanswers 1 _ rfl
    rcases hending with ⟨-, hall⟩ | ⟨taken, refused, reason, hsplit, hall, -⟩
    · rw [hall second (List.mem_cons_of_mem _ List.mem_cons_self)] at hsecond
      cases hsecond
    · -- the second is the last, for the others were taken
      rcases taken with _ | ⟨other, _ | ⟨another, taken⟩⟩
      · simp at hsplit
      · obtain ⟨rfl, rfl, rfl⟩ : first = other ∧ second = refused ∧ later = [] := by
          simpa using hsplit
        refine ⟨first, second, rfl, hfirst, hsecond, ?_⟩
        rintro rfl
        have := hle first List.mem_cons_self
        have := hle second (List.mem_cons_of_mem _ List.mem_cons_self)
        simp at hmany
        omega
      · obtain ⟨rfl, rfl, rfl⟩ : first = other ∧ second = another ∧ later = taken ++ [refused] := by
          simpa using hsplit
        rw [hall second (List.mem_cons_of_mem _ List.mem_cons_self)] at hsecond
        cases hsecond

/-- Where nothing waits there is no datagram. -/
theorem eq_nil_of_packets {dispatches : List Dispatch} {back : List SubPacket}
    (h : [] = dispatches.flatMap Dispatch.packets ++ back)
    (hholds : ∀ dispatch ∈ dispatches, 0 < dispatch.packets.length) : dispatches = [] := by
  rcases dispatches with _ | ⟨dispatch, rest⟩
  · rfl
  · have hpos := hholds dispatch List.mem_cons_self
    rw [List.flatMap_cons, List.append_assoc] at h
    rw [(List.append_eq_nil_iff.mp h.symm).1] at hpos
    cases hpos

/-- If nothing is written to anyone else, and nothing offered, all is for one client. -/
theorem filter_isTo_eq_self {effects : List Effect} {client : Address}
    (hoffered : effects.filterMap Effect.offered? = [])
    (hsilent : ∀ other ≠ client, effects.filter (Effect.isTo other) = []) :
    effects.filter (Effect.isTo client) = effects := by
  rw [List.filter_eq_self]
  intro effect hmem
  rcases effect with ⟨other, bytes, result⟩ | ⟨routed, result⟩
  · by_contra hother
    have hne : other ≠ client := fun heq => hother (decide_eq_true heq)
    exact List.filter_eq_nil_iff.mp (hsilent other hne) _ hmem (decide_eq_true rfl)
  · cases List.filterMap_eq_nil_iff.mp hoffered _ hmem

/-- Twenty-five packets. -/
def crowd : List SubPacket :=
  (List.range 25).map fun i => ⟨0x15, 0, [UInt8.ofNat i]⟩

/-- A relay for whose one client they wait. -/
def visited : Relay :=
  (run (answering (.ok ())) (entered [7]) [.enqueue (.v4 127 0 0 1 5000) crowd]).relay

/-- In that world a first datagram is taken, a second one is refused and kept, and the other packets
wait again. -/
theorem flush_conserves_visited : ∃ effects after first second back session,
    Reachable visited ∧ visited.queues.waiting (.v4 127 0 0 1 5000) = crowd ∧
    perform (visited.flush takingOne.outlets ⟨5, 0⟩) [] = ((1, after), effects) ∧
    effects = [first, second].map (Dispatch.effect (.v4 127 0 0 1 5000)) ∧
    first.result = .ok () ∧ second.result = .error "refused" ∧
    first.datagram.sequence = 0 ∧ second.datagram.sequence = 1 ∧
    first.packets ++ (second.packets ++ back) = crowd ∧ back ≠ [] ∧
    after.queues.waiting (.v4 127 0 0 1 5000) = back ∧
    after.session? (.v4 127 0 0 1 5000) = some session ∧
    session.lastSent = some ⟨1, second.datagram.bytes⟩ := by
  have hreachable : Reachable visited := reachable_entered [7] _
  have hentries : visited.queues.entries = [(.v4 127 0 0 1 5000, crowd)] := by decide +kernel
  have hnumber : (visited.session? (.v4 127 0 0 1 5000)).map (·.serverSequence) = some 0 := by
    decide +kernel
  have hwaiting : visited.queues.waiting (.v4 127 0 0 1 5000) = crowd := by
    rw [Queues.waiting, Queues.get?, hentries]
    rfl
  obtain ⟨effects, after, hperform, hanswers, hoffered, hclients⟩ :=
    flush_conserves hreachable takingOne ⟨5, 0⟩ []
  obtain ⟨dispatches, back, heffects, hconserved, hback, hending, hpacked, hnumbered, -⟩ :=
    hclients (.v4 127 0 0 1 5000)
  rw [hwaiting] at hconserved
  -- nothing is written to anyone else, for whom nothing waits
  have hsilent : ∀ other ≠ .v4 127 0 0 1 5000, effects.filter (Effect.isTo other) = [] := by
    intro other hother
    obtain ⟨others, left, hfilter, hnothing, -, -, hholds, -⟩ := hclients other
    have hnone : visited.queues.waiting other = [] := by
      rw [Queues.waiting, Queues.get?, hentries, List.find?_singleton,
        if_neg (by simpa using Ne.symm hother)]
      rfl
    rw [hnone] at hnothing
    rw [hfilter, eq_nil_of_packets hnothing fun dispatch hmem => (hholds dispatch hmem).2.2.1]
    rfl
  rw [filter_isTo_eq_self hoffered hsilent] at heffects
  rw [heffects] at hanswers
  have hmany : 2 * 10 < (dispatches.flatMap Dispatch.packets ++ back).length := by
    rw [← hconserved]
    decide
  have hten : visited.packetLimit ≤ 10 := Nat.max_le.mpr ⟨by decide, Nat.min_le_right _ _⟩
  obtain ⟨first, second, rfl, hfirst, hsecond, hrest⟩ := exists_pair_of_takingOne hanswers hmany
    (fun dispatch hmem => Nat.le_trans (hpacked dispatch hmem).2.2.2.1 hten) (by
      rcases hending with hall | ⟨taken, refused, reason, session, hsplit, htaken, hreason, -⟩
      · exact Or.inl hall
      · exact Or.inr ⟨taken, refused, reason, hsplit, htaken, hreason⟩)
  have hsequence : ∀ i dispatch, [first, second][i]? = some dispatch →
      dispatch.datagram.sequence = UInt16.ofNat i := by
    intro i dispatch hi
    obtain ⟨session, hsession, hsequence⟩ := hnumbered i dispatch hi
    rw [hsession, Option.map_some, Option.some.injEq] at hnumber
    rw [hsequence, hnumber, UInt16.zero_add]
  obtain ⟨hempty, -⟩ | ⟨taken, refused, reason, session, hsplit, -, -, hsession, hkept⟩ := hending
  · exact absurd hempty hrest
  · obtain rfl : second = refused := by simpa using congrArg List.getLast? hsplit
    rw [hsequence 1 second rfl] at hkept
    have hcount : effects.countP Effect.delivers = 1 := by
      rw [heffects, List.map_cons, List.map_singleton, Dispatch.effect, Dispatch.effect, hfirst,
        hsecond]
      rfl
    rw [hcount] at hperform
    refine ⟨effects, after, first, second, back, session, hreachable, hwaiting, hperform, heffects,
      hfirst, hsecond, hsequence 0 first rfl, hsequence 1 second rfl, ?_, hrest, hback, hsession,
      hkept⟩
    simpa using hconserved.symm

end Relay

end ZoneRelay
