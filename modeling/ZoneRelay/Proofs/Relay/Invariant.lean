import ZoneRelay.Config.Check
import ZoneRelay.Proofs.Relay.Queues
import ZoneRelay.Proofs.Relay.Register
import ZoneRelay.Proofs.Relay.Run

/-!
# Sessions, queues and counters agree

The relay keeps its sessions in one table, what waits for their clients in another, and counts
sessions in two places. Ten operations change these, most of them by several steps. **They stay
in agreement along every run** (`ZoneRelay.Relay.tables_of_run`), whatever the world refuses.

A relay is **in order** (`ZoneRelay.Relay.Sound`) when its register is in balance and its queues
are in order, and they belong together: a queue belongs to a live client. What an operation does
to a register it has to do to the queues.

| | the register | the queues |
|---|---|---|
| a login of a client without a session | the client joins | stay |
| the same, and the table is full | it joins in the place of the oldest | the oldest client's goes |
| a sweep | idle clients go | theirs go |
| a disconnection | the client leaves | its own goes |
| packets for a client with a session | stays | its own is written |
| emptying the queues | stays | are emptied, and written for clients with a session |
-/

namespace ZoneRelay

open ZoneRelay.Frame (SubPacket)

namespace Relay

open World

/-! ### Relays in order -/

/-- **A relay in order**: its register is in balance and its queues are in order. -/
structure Sound (config : Config) (book : Code.Book) (operations gone : Nat) (relay : Relay) :
    Prop where
  balanced : Balanced config book operations gone relay.register
  orderly : relay.queues.Orderly config.outbound.backlogLimit relay.register.clients

namespace Sound

variable {config : Config} {book : Code.Book} {operations gone : Nat} {relay after : Relay}

theorem kept (h : Sound config book operations gone relay) (hkept : Kept relay after) :
    Sound config book operations gone after :=
  ⟨hkept.register_eq ▸ h.balanced, hkept.queues_eq ▸ hkept.register_eq ▸ h.orderly⟩

theorem succ (h : Sound config book operations gone relay) :
    Sound config book (operations + 1) gone relay :=
  ⟨h.balanced.succ, h.orderly⟩

/-- **A relay without sessions is in order.** -/
theorem fresh (config : Config) (book : Code.Book) (provider : KeyProvider)
    (adjustment : KeyAdjustment) :
    Sound config book 0 0 (fresh config book provider adjustment).relay where
  balanced :=
    { config_eq := rfl
      book_eq := rfl
      capacity_eq := rfl
      nodup := List.nodup_nil
      length_le := Nat.zero_le _
      created_eq := rfl
      evicted_eq := rfl
      balance := ⟨0, 0, rfl, rfl, rfl, Nat.le_refl _⟩ }
  orderly := Queues.Orderly.empty _ _

/-- The limit for queues is the configured one. -/
theorem backlogLimit_eq (h : Sound config book operations gone relay) :
    relay.config.outbound.backlogLimit = config.outbound.backlogLimit :=
  congrArg (·.outbound.backlogLimit) h.balanced.config_eq

/-- A queue may go. -/
theorem removeQueue (h : Sound config book operations gone relay) (client : Address) :
    Sound config book operations gone { relay with queues := relay.queues.remove client } :=
  ⟨h.balanced, h.orderly.remove client fun _ hlive _ => hlive⟩

/-! ### Logins -/

/-- A login either finds its client's session or puts a new one. -/
theorem enroll_cases {clock : Clock} {client : Address} {login : Login}
    {admission : SessionTable.Admission} {enrolled : Relay}
    (h : relay.enroll clock client login = .ok (admission, enrolled)) :
    admission.created = false ∧ admission.evicted = none ∧ enrolled = relay ∨
      ∃ session, session.address = client ∧ relay.sessions.get? client = none ∧
        admission.created = true ∧
        relay.sessions.insert session = (admission.evicted, enrolled.sessions) ∧
        enrolled = { relay with sessions := enrolled.sessions } := by
  rcases hprovider : relay.provider login.character with fault | material
  · simp only [Relay.enroll, hprovider] at h
    cases h
  · rcases hsession : relay.sessions.get? client with _ | session
    · simp only [Relay.enroll, hprovider, SessionTable.getOrInsert, hsession] at h
      obtain ⟨rfl, rfl⟩ := Prod.mk.inj (Except.ok.inj h)
      exact Or.inr ⟨_, rfl, rfl, rfl, rfl, rfl⟩
    · simp only [Relay.enroll, hprovider, SessionTable.getOrInsert, hsession] at h
      obtain ⟨rfl, rfl⟩ := Prod.mk.inj (Except.ok.inj h)
      exact Or.inl ⟨rfl, rfl, rfl⟩

/-- **A new client joins**, and there is room for it. -/
theorem join (h : Sound config book operations gone relay) {session : Session}
    {admission : SessionTable.Admission} (hcreated : admission.created = true)
    (hevicted : admission.evicted = none) (hnew : session.address ∉ relay.register.clients)
    (hroom : relay.register.clients.length + 1 ≤ relay.register.capacity) :
    Sound config book (operations + 1) gone
      ({ relay with
        sessions := { relay.sessions with
          sessions := relay.sessions.sessions ++ [session]
          created := relay.sessions.created + 1 } }.noteAdmission admission) := by
  have hregister : ({ relay with
      sessions := { relay.sessions with
        sessions := relay.sessions.sessions ++ [session]
        created := relay.sessions.created + 1 } }.noteAdmission admission).register =
      { relay.register with
        clients := relay.register.clients ++ [session.address]
        created := relay.register.created + 1
        countedCreated := relay.register.countedCreated + 1 } := by
    rw [noteAdmission, hcreated, hevicted]
    simp [register, SessionTable.addresses, count, Metrics.sessionCreated, Metrics.login]
  refine ⟨hregister ▸ h.balanced.join hnew hroom, ?_⟩
  rw [hregister, noteAdmission, hcreated, hevicted]
  exact h.orderly.shrink h.orderly.distinct fun _ _ hqueue =>
    ⟨hqueue, fun hlive => List.mem_append_left _ hlive⟩

/-- **A new client joins a full table**: the oldest one goes, and takes its queue along. -/
theorem replace (h : Sound config book operations gone relay) {session : Session}
    {oldest : Address} {admission : SessionTable.Admission} (hcreated : admission.created = true)
    (hevicted : admission.evicted = some oldest)
    (hnew : session.address ∉ relay.register.clients) (hold : oldest ∈ relay.register.clients) :
    Sound config book (operations + 1) gone
      ({ relay with
        sessions := { relay.sessions with
          sessions := (relay.sessions.remove oldest).sessions ++ [session]
          created := relay.sessions.created + 1
          evicted := relay.sessions.evicted + 1 } }.noteAdmission admission) := by
  have hregister : ({ relay with
      sessions := { relay.sessions with
        sessions := (relay.sessions.remove oldest).sessions ++ [session]
        created := relay.sessions.created + 1
        evicted := relay.sessions.evicted + 1 } }.noteAdmission admission).register =
      { relay.register with
        clients := relay.register.clients.filter (· ≠ oldest) ++ [session.address]
        created := relay.register.created + 1
        evicted := relay.register.evicted + 1
        countedCreated := relay.register.countedCreated + 1
        countedEvicted := relay.register.countedEvicted + 1 } := by
    have hclients := relay.sessions.addresses_remove oldest
    rw [SessionTable.addresses] at hclients
    rw [noteAdmission, hcreated, hevicted]
    simp [register, SessionTable.addresses, count, Metrics.sessionCreated, Metrics.login,
      Metrics.evictions, hclients]
  refine ⟨hregister ▸ h.balanced.replace hnew hold, ?_⟩
  rw [hregister, noteAdmission, hcreated, hevicted]
  refine h.orderly.remove oldest fun other hlive hother => ?_
  exact List.mem_append_left _ (List.mem_filter.mpr ⟨hlive, by simpa using hother⟩)

/-- **A login keeps the relay in order.** -/
theorem enroll (h : Sound config book operations gone relay) {clock : Clock} {client : Address}
    {login : Login} {admission : SessionTable.Admission} {enrolled : Relay}
    (henroll : relay.enroll clock client login = .ok (admission, enrolled)) :
    Sound config book (operations + 1) gone (enrolled.noteAdmission admission) := by
  rcases enroll_cases henroll with
    ⟨hcreated, hevicted, rfl⟩ | ⟨session, rfl, hnone, hcreated, hinsert, henrolled⟩
  · have hkept : Kept enrolled (enrolled.noteAdmission admission) := by
      rw [noteAdmission, hcreated, hevicted]
      exact ⟨rfl, rfl⟩
    exact h.succ.kept hkept
  · have hnew : session.address ∉ relay.register.clients :=
      SessionTable.get?_eq_none_iff.mp hnone
    have hcapacity : 1 ≤ relay.register.capacity :=
      h.balanced.capacity_eq ▸ Nat.le_max_left 1 _
    rcases SessionTable.insert_cases hnone hcapacity with
      ⟨hroom, hcase⟩ | ⟨-, oldest, rest, hsessions, hcase⟩
    · obtain ⟨hevicted, htable⟩ := Prod.mk.inj (hinsert.symm.trans hcase)
      rw [← SessionTable.length_addresses] at hroom
      rw [henrolled, htable]
      exact h.join hcreated hevicted hnew hroom
    · obtain ⟨hevicted, htable⟩ := Prod.mk.inj (hinsert.symm.trans hcase)
      have hold : oldest.address ∈ relay.register.clients :=
        List.mem_map.mpr ⟨oldest, hsessions ▸ List.mem_cons_self, rfl⟩
      rw [henrolled, htable]
      exact h.replace hcreated hevicted hnew hold

theorem acceptLogin (h : Sound config book operations gone relay) (clock : Clock)
    (client : Address) (datagram : Bytes) (login : Login) :
    Sound config book (operations + 1) gone
      (relay.acceptLogin clock client datagram login).2 := by
  rw [Relay.acceptLogin]
  rcases henroll : relay.enroll clock client login with fault | ⟨admission, enrolled⟩
  · exact h.succ
  · rcases hreceive : (renew admission.session login).receiveLogin clock.now datagram login with
      ⟨receipt, session⟩
    have hstored := (h.enroll henroll).kept (Kept.store _ session)
    simp only [hreceive]
    split
    · exact hstored.removeQueue client
    · exact hstored

/-! ### Datagrams -/

/-- **Accepting a datagram keeps the relay in order.** -/
theorem accept (h : Sound config book operations gone relay) (clock : Clock) (client : Address)
    (datagram : Bytes) :
    Sound config book (operations + 1) gone (relay.accept clock client datagram).2 := by
  rw [Relay.accept]
  split
  · exact h.succ
  · rcases Login.parse? datagram with fault | _ | login
    · exact h.succ
    · exact h.succ.kept (Kept.acceptEncrypted relay clock client datagram)
    · exact h.acceptLogin clock client datagram login

theorem handle (h : Sound config book operations gone relay) (world : World) (journal : Journal)
    (clock : Clock) (client : Address) (datagram : Bytes) :
    Sound config book (operations + 1) gone
      (perform (relay.handle world.outlets clock client datagram) journal).1.2 :=
  (h.accept clock client datagram).kept (Kept.handle world journal relay clock client datagram)

theorem receive (h : Sound config book operations gone relay) (world : World) (journal : Journal)
    (clock : Clock) (client : Address) (datagram : Bytes) :
    Sound config book (operations + 1) gone
      (perform (relay.receive world.outlets clock client datagram) journal).1 := by
  have hcounted : Sound config book operations gone
      (relay.count (·.datagramReceived datagram.length.toUInt64)) := h.kept ⟨rfl, rfl⟩
  exact (hcounted.accept clock client datagram).kept
    (Kept.receive world journal relay clock client datagram)

/-! ### Queues -/

theorem register_enqueue (relay : Relay) (client : Address) (packets : List SubPacket) :
    (relay.enqueue client packets).2.register = relay.register := by
  rw [Relay.enqueue]
  split <;> rfl

theorem enqueue (h : Sound config book operations gone relay) (client : Address)
    (packets : List SubPacket) :
    Sound config book operations gone (relay.enqueue client packets).2 := by
  rw [Relay.enqueue]
  rcases hsession : relay.session? client with _ | session
  · exact h
  · have hlive : client ∈ relay.register.clients :=
      SessionTable.isSome_get?_iff.mp (Option.isSome_iff_exists.mpr ⟨session, hsession⟩)
    refine ⟨h.balanced, ?_⟩
    simp only [h.backlogLimit_eq]
    exact h.orderly.add hlive fun packet hmem => by simpa using (List.mem_filter.mp hmem).2

/-- Putting back in front of a live client's queue. -/
theorem putBack (h : Sound config book operations gone relay) {client : Address}
    (hlive : client ∈ relay.register.clients) {packets : List SubPacket}
    (hshort : ∀ packet ∈ packets, packet.frameLength ≤ Frame.maxFrameSize) :
    Sound config book operations gone (relay.putBack client packets) := by
  refine ⟨h.balanced, ?_⟩
  rw [Relay.putBack, h.backlogLimit_eq]
  exact h.orderly.putBack hlive hshort

/-- **The rounds of a client** keep the relay in order. -/
theorem rounds {world : World} {clock : Clock} {client : Address} {journal journal' : Journal}
    {packets : List SubPacket} {sent : Nat} {last : Relay}
    (hrounds : Rounds world clock client relay journal packets sent last journal')
    (h : Sound config book operations gone relay) (hlive : client ∈ relay.register.clients)
    (hshort : ∀ packet ∈ packets, packet.frameLength ≤ Frame.maxFrameSize) :
    Sound config book operations gone last := by
  induction hrounds with
  | emptied relay journal => exact h
  | absent journal hsession => exact h
  | unpacked journal hpackets hsession hassemble => exact h.kept (Kept.assemble hassemble)
  | stalled journal hpackets hsession hassemble hconsumed =>
    exact h.kept (Kept.assemble hassemble)
  | @refused relay after packets session datagram journal reason hpackets hsession hassemble =>
    have hkept := (Kept.assemble hassemble).trans (Kept.noteRotation after datagram)
    refine (h.kept hkept).putBack (hkept.register_eq ▸ hlive) fun packet hmem => ?_
    exact hshort packet (List.mem_of_mem_drop hmem)
  | @taken relay after last packets session datagram journal journal' sent hpackets hsession
      hassemble hconsumed hsend hrest ih =>
    have hkept : Kept relay ((after.noteRotation datagram).count
        (·.datagramSent datagram.bytes.length.toUInt64)) :=
      ((Kept.assemble hassemble).trans (Kept.noteRotation after datagram)).trans ⟨rfl, rfl⟩
    exact ih (h.kept hkept) (hkept.register_eq ▸ hlive) fun packet hmem =>
      hshort packet (List.mem_of_mem_drop hmem)

theorem flushAll (world : World) (clock : Clock) {pending : List (Address × List SubPacket)}
    (hshort : ∀ entry ∈ pending, ∀ packet ∈ entry.2, packet.frameLength ≤ Frame.maxFrameSize)
    (h : Sound config book operations gone relay) (journal : Journal) :
    Sound config book operations gone
        (perform (relay.flushAll world.outlets clock pending) journal).1.2 ∧
      (perform (relay.flushAll world.outlets clock pending) journal).1.2.register =
        relay.register := by
  induction pending generalizing relay journal with
  | nil => exact ⟨h, rfl⟩
  | cons entry rest ih =>
    obtain ⟨client, packets⟩ := entry
    have hrest : ∀ entry ∈ rest, ∀ packet ∈ entry.2, packet.frameLength ≤ Frame.maxFrameSize :=
      fun entry hmem => hshort entry (List.mem_cons_of_mem _ hmem)
    rcases hsession : relay.session? client with _ | session
    · rw [perform_flushAll_none world clock hsession]
      exact ih hrest (h.removeQueue client) journal
    · have hlive : client ∈ relay.register.clients :=
        SessionTable.isSome_get?_iff.mp (Option.isSome_iff_exists.mpr ⟨session, hsession⟩)
      have hrounds := rounds_flushClient world clock client relay packets journal
      obtain ⟨hlast, hregister⟩ :=
        ih hrest (h.rounds hrounds hlive (hshort _ List.mem_cons_self))
          (perform (relay.flushClient world.outlets clock client packets) journal).2
      rw [perform_flushAll_some world hsession rfl rfl]
      exact ⟨hlast, hregister.trans hrounds.register_eq⟩

/-- **Emptying all queues** keeps the relay in order, and its register as it is. -/
theorem flush (h : Sound config book operations gone relay) (world : World) (clock : Clock)
    (journal : Journal) :
    Sound config book operations gone
        (perform (relay.flush world.outlets clock) journal).1.2 ∧
      (perform (relay.flush world.outlets clock) journal).1.2.register = relay.register := by
  have hdrained : Sound config book operations gone { relay with queues := relay.queues.drain.2 } :=
    ⟨h.balanced, h.orderly.drain⟩
  refine hdrained.flushAll world clock (fun entry hmem packet hpacket => ?_) journal
  have hqueue := ((Queues.mem_drain h.orderly.distinct).mp hmem).1
  exact (h.orderly.fits entry.1 entry.2 hqueue).short packet hpacket

/-! ### Ends of sessions -/

/-- **Idle clients go with their queues.** -/
theorem sweepExcept (h : Sound config book operations gone relay) (clock : Clock)
    (busy : Address → Bool) :
    Sound config book operations gone (relay.sweepExcept clock busy).2 ∧
      (relay.sweepExcept clock busy).2.register.clients ⊆ relay.register.clients := by
  have hsublist := relay.sessions.addresses_evictIdle_sublist clock.now
    relay.config.session.idleTimeout busy
  have hsize := relay.sessions.size_evictIdle clock.now relay.config.session.idleTimeout busy
  have hcounters :=
    relay.sessions.counters_evictIdle clock.now relay.config.session.idleTimeout busy
  have hstay := fun client => @SessionTable.mem_addresses_evictIdle relay.sessions clock.now
    relay.config.session.idleTimeout busy client
  rcases hidle : relay.sessions.evictIdle clock.now relay.config.session.idleTimeout busy with
    ⟨idle, sessions⟩
  rw [hidle] at hsublist hsize
  simp only [hidle] at hcounters hstay
  obtain ⟨hcapacity, hcreated, hevicted⟩ := hcounters
  rw [Relay.sweepExcept, hidle]
  simp only
  split
  · exact ⟨h, fun _ hmem => hmem⟩
  · have hregister : ({ relay with sessions, queues := relay.queues.removeAll idle }.count
        (·.evictions idle.length.toUInt64)).register =
          { relay.register with
            clients := sessions.addresses
            evicted := relay.register.evicted + UInt64.ofNat idle.length
            countedEvicted := relay.register.countedEvicted + UInt64.ofNat idle.length } := by
      simp only [register, count, Metrics.evictions, hcapacity, hcreated, hevicted, Nat.toUInt64]
    have hlength : sessions.addresses.length + idle.length = relay.register.clients.length := by
      rw [SessionTable.length_addresses]
      exact hsize.trans relay.sessions.length_addresses.symm
    refine ⟨⟨hregister ▸ h.balanced.sweep (h.balanced.nodup.sublist hsublist) hlength, ?_⟩, ?_⟩
    · rw [hregister]
      exact h.orderly.removeAll idle hstay
    · rw [hregister]
      exact hsublist.subset

/-- **A client leaves with its queue.** -/
theorem disconnect (h : Sound config book operations gone relay) (client : Address) :
    Sound config book operations (gone + (relay.disconnect client).1.toNat)
        (relay.disconnect client).2 ∧
      (relay.disconnect client).2.register.clients ⊆ relay.register.clients := by
  have hclients : (relay.disconnect client).2.register.clients =
      relay.register.clients.filter (· ≠ client) := relay.sessions.addresses_remove client
  have hregister : (relay.disconnect client).2.register =
      { relay.register with clients := relay.register.clients.filter (· ≠ client) } := by
    rw [← hclients]
    rfl
  have horderly : (relay.queues.remove client).Orderly config.outbound.backlogLimit
      (relay.register.clients.filter (· ≠ client)) := by
    refine h.orderly.remove client fun other hlive hother => ?_
    exact List.mem_filter.mpr ⟨hlive, by simpa using hother⟩
  refine ⟨⟨?_, hregister ▸ horderly⟩, fun _ hmem => ?_⟩
  · rw [hregister]
    by_cases hlive : client ∈ relay.register.clients
    · have hfound : (relay.disconnect client).1 = true := SessionTable.isSome_get?_iff.mpr hlive
      rw [hfound]
      exact h.balanced.leave hlive
    · have hfound : (relay.disconnect client).1 = false :=
        Bool.eq_false_iff.mpr fun hsome => hlive (SessionTable.isSome_get?_iff.mp hsome)
      have hsame : relay.register.clients.filter (· ≠ client) = relay.register.clients :=
        List.filter_eq_self.mpr fun other hmem => by
          simpa using fun hother : other = client => hlive (hother ▸ hmem)
      rw [hfound, hsame]
      exact h.balanced
  · rw [hregister] at hmem
    exact List.mem_of_mem_filter hmem

end Sound

/-! ### Runs -/

section Runs

variable {config : Config} {book : Code.Book} {operations gone : Nat} {state : State}

/-- **Every operation keeps the relay in order.** -/
theorem sound_step (h : Sound config book operations gone state.relay) (world : World) (op : Op) :
    Sound config book (operations + 1) (gone + (step world state op).outcome.ends.toNat)
      (step world state op).after.relay := by
  cases op with
  | handle clock client datagram => exact h.handle world state.journal clock client datagram
  | receive clock client datagram => exact h.receive world state.journal clock client datagram
  | enqueue client packets => exact (h.enqueue client packets).succ
  | enqueueRouted routed => exact (h.enqueue routed.client [routed.toSubPacket]).succ
  | takeReply reply =>
    rcases reply with fault | routed
    · exact h.succ.kept ⟨rfl, rfl⟩
    · exact (h.enqueue routed.client [routed.toSubPacket]).succ
  | flush clock => exact (h.flush world clock state.journal).1.succ
  | keepAlive clock client =>
    exact h.succ.kept (Kept.keepAlive world state.journal state.relay clock client)
  | sweep clock busy => exact (h.sweepExcept clock busy).1.succ
  | disconnect client => exact (h.disconnect client).1.succ
  | provide provider => exact h.succ.kept ⟨rfl, rfl⟩

/-- What waits for anyone after a login was noted has waited before. -/
theorem get?_of_noteAdmission {relay enrolled : Relay} {clock : Clock} {client other : Address}
    {login : Login} {admission : SessionTable.Admission} {packets : List SubPacket}
    (henroll : relay.enroll clock client login = .ok (admission, enrolled))
    (h : (enrolled.noteAdmission admission).queues.get? other = some packets) :
    relay.queues.get? other = some packets := by
  have hqueues : enrolled.queues = relay.queues := by
    rcases Sound.enroll_cases henroll with ⟨-, -, rfl⟩ | ⟨session, -, -, -, -, henrolled⟩
    · rfl
    · rw [henrolled]
  rw [← hqueues]
  rcases hevicted : admission.evicted with _ | oldest
  · simp only [noteAdmission, hevicted] at h
    split at h <;> exact h
  · simp only [noteAdmission, hevicted] at h
    split at h <;> exact Queues.get?_of_remove h

/-- What waits for anyone after a datagram was accepted has waited before. -/
theorem get?_of_accept {relay : Relay} {clock : Clock} {client other : Address}
    {datagram : Bytes} {packets : List SubPacket}
    (h : (relay.accept clock client datagram).2.queues.get? other = some packets) :
    relay.queues.get? other = some packets := by
  rw [accept] at h
  split at h
  · exact h
  · rcases hparse : Login.parse? datagram with fault | _ | login
    · rwa [hparse] at h
    · rw [hparse] at h
      exact (Kept.acceptEncrypted relay clock client datagram).queues_eq ▸ h
    · simp only [hparse, acceptLogin] at h
      rcases henroll : relay.enroll clock client login with fault | ⟨admission, enrolled⟩
      · rwa [henroll] at h
      · simp only [henroll] at h
        refine get?_of_noteAdmission henroll ?_
        split at h
        · exact Queues.get?_of_remove h
        · exact h

/-- **A client without a session has nothing waiting after the next operation**, even if that
gives it one. -/
theorem get?_step_eq_none (h : Sound config book operations gone state.relay)
    (world : World) (op : Op) {client : Address} (hnone : client ∉ state.relay.register.clients) :
    (step world state op).after.relay.queues.get? client = none := by
  rw [Option.eq_none_iff_forall_ne_some]
  intro packets hqueue
  -- a datagram gives no queue to anyone, the other operations no session
  have hbefore : state.relay.queues.get? client ≠ some packets :=
    fun hold => hnone (h.orderly.live client packets hold)
  have hstays : ¬ (step world state op).after.relay.register.clients ⊆
      state.relay.register.clients := fun hclients =>
    hnone (hclients ((sound_step h world op).orderly.live client packets hqueue))
  cases op with
  | handle clock other datagram =>
    have hkept := Kept.handle world state.journal state.relay clock other datagram
    exact hbefore (get?_of_accept (hkept.queues_eq ▸ hqueue))
  | receive clock other datagram =>
    have hkept := Kept.receive world state.journal state.relay clock other datagram
    have hcounted : (state.relay.count (·.datagramReceived datagram.length.toUInt64)).queues.get?
        client = some packets := get?_of_accept (hkept.queues_eq ▸ hqueue)
    exact hbefore hcounted
  | enqueue other packets =>
    exact hstays (Sound.register_enqueue state.relay other packets ▸ fun _ hmem => hmem)
  | enqueueRouted routed =>
    exact hstays (Sound.register_enqueue state.relay _ _ ▸ fun _ hmem => hmem)
  | takeReply reply =>
    rcases reply with fault | routed
    · exact hbefore hqueue
    · exact hstays (Sound.register_enqueue state.relay _ _ ▸ fun _ hmem => hmem)
  | flush clock =>
    exact hstays ((h.flush world clock state.journal).2 ▸ fun _ hmem => hmem)
  | keepAlive clock other =>
    have hkept := Kept.keepAlive world state.journal state.relay clock other
    exact hbefore (hkept.queues_eq ▸ hqueue)
  | sweep clock busy => exact hstays (h.sweepExcept clock busy).2
  | disconnect other => exact hstays (h.disconnect other).2
  | provide provider => exact hbefore hqueue

/-- **Every run keeps the relay in order.** -/
theorem sound_run (h : Sound config book operations gone state.relay) (world : World)
    (ops : List Op) :
    Sound config book (operations + ops.length)
      (gone + (trace world state ops).countP (·.outcome.ends)) (run world state ops).relay := by
  induction ops generalizing state operations gone with
  | nil => exact h
  | cons op rest ih =>
    have hrest := ih (sound_step h world op)
    have hgone : gone + (step world state op).outcome.ends.toNat +
        (trace world (step world state op).after rest).countP (·.outcome.ends) =
        gone + (trace world state (op :: rest)).countP (·.outcome.ends) := by
      rw [trace, List.countP_cons, Nat.add_assoc, Nat.add_comm (Bool.toNat _)]
      rcases (step world state op).outcome.ends <;> rfl
    rw [hgone, Nat.add_assoc, Nat.add_comm 1] at hrest
    exact hrest

/-- A run keeps the code. -/
theorem book_run (config : Config) (book : Code.Book) (provider : KeyProvider)
    (adjustment : KeyAdjustment) (world : World) (ops : List Op) :
    (run world (fresh config book provider adjustment) ops).relay.book = book :=
  (sound_run (Sound.fresh config book provider adjustment) world ops).balanced.book_eq

/-- **Every operation of a run** starts from a relay in order. -/
theorem sound_before (h : Sound config book operations gone state.relay) (world : World)
    (ops : List Op) : ∀ found ∈ trace world state ops,
      (∃ operations gone, Sound config book operations gone found.before.relay) ∧
        found = step world found.before found.op := by
  induction ops generalizing state operations gone with
  | nil => exact fun found hfound => absurd hfound List.not_mem_nil
  | cons op rest ih =>
    intro found hfound
    rcases List.mem_cons.mp hfound with hfirst | hrest
    · rw [hfirst]
      exact ⟨⟨operations, gone, h⟩, rfl⟩
    · exact ih (sound_step h world op) found hrest

end Runs

/-! ### The main statement -/

/-- A configuration that was accepted has no problem. -/
theorem not_mem_problems {config : Config} (h : config.check = .ok ()) (problem : Config.Problem) :
    problem ∉ config.problems := by
  rw [Config.check] at h
  split at h
  · rename_i hnone
    rw [List.isEmpty_iff.mp hnone]
    exact List.not_mem_nil
  · cases h

/-- It has room for a session. -/
theorem maxSessions_pos {config : Config} (h : config.check = .ok ()) :
    0 < config.server.maxSessions := by
  refine Nat.pos_of_ne_zero fun hzero => not_mem_problems h .noSessions ?_
  simp [Config.problems, Config.Server.problems, Config.report, hzero]

/-- **Sessions, queues and counters agree.** Take any accepted configuration, any code book, source
and adjustment of keys, any world, and any operations. After them

* no more sessions are live than the configuration allows, every one of them is found under its
  own address and no other;
* every queue belongs to a client with a session, is within the configured limit, and holds only
  what frames to at most 508 bytes; and a client that had no session before an operation has
  nothing waiting after it, even if that operation gave it one;
* both counts of the sessions created are the same, and both counts of those evicted;
* what is live is what was created, without what was evicted and what was disconnected – in 64-bit
  words, and in numbers unless there were so many operations that the counters can have wrapped. -/
theorem tables_of_run (config : Config) (hconfig : config.check = .ok ()) (book : Code.Book)
    (provider : KeyProvider) (adjustment : KeyAdjustment) (world : World) (ops : List Op) :
    let first := fresh config book provider adjustment
    let relay := (run world first ops).relay
    let gone := (trace world first ops).countP (·.outcome.ends)
    relay.sessions.size ≤ config.server.maxSessions ∧
      (∀ session ∈ relay.sessions.sessions,
        relay.session? session.address = some session) ∧
      (∀ client session, relay.session? client = some session → session.address = client) ∧
      (∀ client packets, relay.queues.get? client = some packets →
        (relay.session? client).isSome ∧
          packets.length ≤ config.outbound.backlogLimit ∧
          ∀ packet ∈ packets, packet.frameLength ≤ 508) ∧
      (∀ found ∈ trace world first ops, ∀ client,
        found.before.relay.session? client = none → found.after.relay.queued client = 0) ∧
      relay.metrics.sessionsCreated = relay.sessions.created ∧
      relay.metrics.sessionsEvicted = relay.sessions.evicted ∧
      UInt64.ofNat relay.sessions.size =
        relay.sessions.created - relay.sessions.evicted - UInt64.ofNat gone ∧
      (ops.length < 2 ^ 64 →
        relay.sessions.size + relay.sessions.evicted.toNat + gone =
          relay.sessions.created.toNat) := by
  intro first relay gone
  have hfresh : Sound config book 0 0 first.relay := Sound.fresh config book provider adjustment
  obtain ⟨hbalanced, horderly⟩ := sound_run hfresh world ops
  rw [Nat.zero_add, Nat.zero_add] at hbalanced
  have hsize : relay.register.clients.length = relay.sessions.size :=
    relay.sessions.length_addresses
  refine ⟨?_, fun session hmem => SessionTable.get?_of_mem hbalanced.nodup hmem,
    fun client session hsession => SessionTable.address_of_get? hsession,
    fun client packets hqueue => ?_, fun found hfound client hnone => ?_, hbalanced.created_eq,
    hbalanced.evicted_eq, ?_, fun hops => ?_⟩
  · have hlength := hbalanced.length_le
    have hpos := maxSessions_pos hconfig
    rw [hbalanced.capacity_eq, hsize] at hlength
    omega
  · have hfits := horderly.fits client packets hqueue
    exact ⟨SessionTable.isSome_get?_iff.mpr (horderly.live client packets hqueue),
      hfits.length_le, hfits.short⟩
  · obtain ⟨⟨operations, gone, hsound⟩, hstep⟩ := sound_before hfresh world ops found hfound
    have hqueue := get?_step_eq_none hsound world found.op
      (SessionTable.get?_eq_none_iff.mp hnone)
    rw [← hstep] at hqueue
    rw [queued, Queues.waiting, hqueue]
    rfl
  · rw [← hsize]
    exact hbalanced.live_eq
  · rw [← hsize]
    exact hbalanced.live_eq_of_lt hops

/-- One session was created, and it is not live because it was disconnected. -/
theorem tables_of_run_visit : Config.standard.check = .ok () ∧
    let relay := (run (answering (.ok ())) newcomer visit).relay
    let gone := (trace (answering (.ok ())) newcomer visit).countP (·.outcome.ends)
    relay.sessions.created = 1 ∧ gone = 1 ∧ relay.sessions.size = 0 ∧
      UInt64.ofNat relay.sessions.size =
        relay.sessions.created - relay.sessions.evicted - UInt64.ofNat gone ∧
      relay.sessions.size + relay.sessions.evicted.toNat + gone = relay.sessions.created.toNat := by
  have htables := tables_of_run .standard rfl (bookOf .standard)
    (fun _ => .ok ⟨.ofText "secret", false⟩) .none (answering (.ok ())) visit
  rw [← newcomer] at htables
  obtain ⟨-, -, -, -, -, -, -, hwords, hnumbers⟩ := htables
  exact ⟨rfl, by decide +kernel, by decide +kernel, by decide +kernel, hwords,
    hnumbers (by decide)⟩

end Relay

end ZoneRelay
