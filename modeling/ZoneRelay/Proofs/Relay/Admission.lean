import ZoneRelay.Proofs.Relay.Invariant

/-!
# What a datagram does to the tables

A datagram is accepted as a login if it is a valid one and its character has a key
(`ZoneRelay.Relay.admits?`). If its sender has no session it gets a new one
(`ZoneRelay.Relay.newcomer?`), for which the oldest session of the others may have to make room
(`ZoneRelay.Relay.displaced?`). What is done to the sender's session is a run of the session
itself (`ZoneRelay.Relay.dealings`): a login gives up a pending change of key, may start the
numbers over, and is taken apart in the clear; any other datagram is received.

These four say all there is to say about sessions and queues afterwards.

| of | the session | the queue |
|---|---|---|
| the sender | its own or the new one, after the dealings | stays, or is dropped by a login |
| the client that made room | gone | gone |
| anyone else | stays | stays |
-/

namespace ZoneRelay

open ZoneRelay.Frame (SubPacket)

namespace Relay

open World

/-! ### Logins that are accepted -/

/-- The login that a datagram is accepted as, with the material of its character's key. -/
def admits? (relay : Relay) (datagram : Bytes) : Option (Login × KeyMaterial) :=
  match Login.parse? datagram with
  | .ok (some login) =>
    match relay.provider login.character with
    | .ok material => some (login, material)
    | .error _ => none
  | _ => none

/-- The session that a datagram gives to a client that has none. -/
def newcomer? (relay : Relay) (clock : Clock) (client : Address) (datagram : Bytes) :
    Option Session :=
  match relay.session? client, relay.admits? datagram with
  | none, some (login, material) =>
    some (.start client login.character (relay.adjustment material) clock.now)
  | _, _ => none

/-- The client whose session has to make room for it. -/
def displaced? (relay : Relay) (clock : Clock) (client : Address) (datagram : Bytes) :
    Option Address :=
  (relay.newcomer? clock client datagram).bind fun session => (relay.sessions.insert session).1

/-- What a datagram does to its sender's session. -/
def dealings (relay : Relay) (clock : Clock) (datagram : Bytes) : List Session.Op :=
  match Login.parse? datagram, relay.admits? datagram with
  | .ok none, _ => [.receive relay.scratch clock.now datagram]
  | _, some (login, _) =>
    .restartLogin :: (if login.wantsResync then [.resync login.sync] else []) ++
      [.receiveLogin clock.now datagram login]
  | _, none => []

variable {relay : Relay} {clock : Clock} {client other : Address} {datagram : Bytes}
  {login : Login} {material : KeyMaterial}

theorem admits?_eq_some_iff : relay.admits? datagram = some (login, material) ↔
    Login.parse? datagram = .ok (some login) ∧
      relay.provider login.character = .ok material := by
  rw [admits?]
  constructor
  · intro h
    split at h
    · rename_i found hparse
      split at h
      · rename_i known hprovider
        cases h
        exact ⟨hparse, hprovider⟩
      · cases h
    · cases h
  · rintro ⟨hparse, hprovider⟩
    simp only [hparse, hprovider]

/-- The first session of a character under a client's address. -/
theorem newcomer?_eq_some_iff {session : Session} :
    relay.newcomer? clock client datagram = some session ↔
      relay.session? client = none ∧ ∃ login material,
        relay.admits? datagram = some (login, material) ∧
        session = .start client login.character (relay.adjustment material) clock.now := by
  rw [newcomer?]
  constructor
  · intro h
    split at h
    · rename_i login material hnone hadmits
      cases h
      exact ⟨hnone, login, material, hadmits, rfl⟩
    · cases h
  · rintro ⟨hnone, login, material, hadmits, rfl⟩
    simp only [hnone, hadmits]

/-- A client that has a session gets no other one. -/
theorem newcomer?_eq_none_of_some {session : Session} (h : relay.session? client = some session)
    (clock : Clock) (datagram : Bytes) : relay.newcomer? clock client datagram = none := by
  rw [newcomer?, h]

/-- A valid login is long enough to be looked at. -/
theorem headerSize_le_of_parse? (h : Login.parse? datagram = .ok (some login)) :
    ¬ datagram.length < Frame.headerSize := by
  intro hshort
  have hbody : Login.body datagram = [] := by
    rw [Login.body, List.drop_eq_nil_iff, List.length_take]
    omega
  rw [Login.parse?] at h
  split at h
  · cases h
  · rw [hbody] at h
    cases h

/-! ### Accepting a login -/

/-- Noting a login gives up one queue and no other. -/
theorem get?_noteAdmission (relay : Relay) (admission : SessionTable.Admission) (other : Address) :
    (relay.noteAdmission admission).sessions = relay.sessions ∧
      (relay.noteAdmission admission).queues.get? other =
        if admission.evicted = some other then none else relay.queues.get? other := by
  obtain ⟨session, created, evicted⟩ := admission
  have hsome : ∀ old : Address, (relay.queues.remove old).get? other =
      if some old = some other then none else relay.queues.get? other := by
    intro old
    rw [Queues.get?_remove]
    simp only [Option.some.injEq, eq_comm]
  rcases evicted with _ | old
  · cases created with
    | true => exact ⟨rfl, rfl⟩
    | false => exact ⟨rfl, rfl⟩
  · cases created with
    | true => exact ⟨rfl, hsome old⟩
    | false => exact ⟨rfl, hsome old⟩

/-- **Where a login goes**: to the session of its sender, or to a new one. -/
theorem session?_enroll (clock : Clock) (client : Address)
    (hadmits : relay.admits? datagram = some (login, material)) :
    ∃ admission enrolled, relay.enroll clock client login = .ok (admission, enrolled) ∧
      (relay.session? client).or (relay.newcomer? clock client datagram) =
        some admission.session ∧
      admission.evicted = relay.displaced? clock client datagram ∧
      enrolled.queues = relay.queues ∧
      (0 < relay.sessions.capacity → ∀ other, enrolled.session? other =
        if other = client then some admission.session
        else if relay.displaced? clock client datagram = some other then none
        else relay.session? other) := by
  obtain ⟨-, hprovider⟩ := admits?_eq_some_iff.mp hadmits
  rcases hsession : relay.session? client with _ | session
  · have hnew : relay.newcomer? clock client datagram =
        some (.start client login.character (relay.adjustment material) clock.now) :=
      newcomer?_eq_some_iff.mpr ⟨hsession, login, material, hadmits, rfl⟩
    have hfound : relay.sessions.get? client = none := hsession
    let session := Session.start client login.character (relay.adjustment material) clock.now
    have henroll : relay.enroll clock client login =
        .ok (⟨session, true, (relay.sessions.insert session).1⟩,
          { relay with sessions := (relay.sessions.insert session).2 }) := by
      simp only [enroll, hprovider, SessionTable.getOrInsert, hfound]
      rfl
    refine ⟨_, _, henroll, by rw [hnew]; rfl, by rw [displaced?, hnew]; rfl, rfl,
      fun hroom other => ?_⟩
    rw [displaced?, hnew]
    exact @SessionTable.get?_insert relay.sessions session hfound hroom other
  · have hfound : relay.sessions.get? client = some session := hsession
    have hnone := newcomer?_eq_none_of_some hsession clock datagram
    refine ⟨_, _, by simp only [enroll, hprovider, SessionTable.getOrInsert, hfound]; rfl,
      rfl, by rw [displaced?, hnone]; rfl, rfl, fun _ other => ?_⟩
    rw [displaced?, hnone]
    by_cases hother : other = client
    · rw [if_pos hother, hother]
      exact hsession
    · rw [if_neg hother]
      rfl

/-- What a login does to a session is a run of it. -/
theorem run_dealings (book : Code.Book) (clock : Clock)
    (hadmits : relay.admits? datagram = some (login, material)) (session : Session) :
    session.run book (relay.dealings clock datagram) =
      ((renew session login).receiveLogin clock.now datagram login).2 := by
  obtain ⟨hparse, -⟩ := admits?_eq_some_iff.mp hadmits
  simp only [dealings, hparse, hadmits, renew]
  split <;> rfl

/-- The session that a datagram goes to has its sender's address. -/
theorem address_of_entrant {session : Session}
    (h : (relay.session? client).or (relay.newcomer? clock client datagram) = some session) :
    session.address = client := by
  rcases Option.or_eq_some_iff.mp h with hfound | ⟨-, hnew⟩
  · exact SessionTable.address_of_get? hfound
  · obtain ⟨-, login, material, -, rfl⟩ := newcomer?_eq_some_iff.mp hnew
    rfl

/-- **An accepted login**: its sender has a session or gets one, which goes through the dealings;
what the login brought is labelled with its own character. -/
theorem accept_of_admits (clock : Clock) (client : Address)
    (hadmits : relay.admits? datagram = some (login, material)) :
    ∃ session after,
      (relay.session? client).or (relay.newcomer? clock client datagram) = some session ∧
      relay.accept clock client datagram =
        (.ok ⟨client, login.character,
          ((renew session login).receiveLogin clock.now datagram login).1⟩, after) ∧
      (0 < relay.sessions.capacity → ∀ other, after.session? other =
        if other = client then some (session.run relay.book (relay.dealings clock datagram))
        else if relay.displaced? clock client datagram = some other then none
        else relay.session? other) ∧
      ∀ other, other ≠ client → after.queues.get? other =
        if relay.displaced? clock client datagram = some other then none
        else relay.queues.get? other := by
  obtain ⟨hparse, -⟩ := admits?_eq_some_iff.mp hadmits
  obtain ⟨admission, enrolled, henroll, hsession, hevicted, hwaiting, htable⟩ :=
    session?_enroll clock client hadmits
  rcases hreceive : (renew admission.session login).receiveLogin clock.now datagram login with
    ⟨receipt, received⟩
  have hrun : admission.session.run relay.book (relay.dealings clock datagram) = received :=
    (run_dealings relay.book clock hadmits admission.session).trans (congrArg Prod.snd hreceive)
  have haddress : received.address = client := by
    rw [← hrun, (Session.identity_run relay.book _ _).1]
    exact address_of_entrant hsession
  -- the table after each of the three things that happen to it: the login is enrolled, what came
  -- of that is noted, and the session is stored as it is after the login
  have hnoted : 0 < relay.sessions.capacity → ∀ other,
      (enrolled.noteAdmission admission).session? other =
      if other = client then some admission.session
      else if relay.displaced? clock client datagram = some other then none
      else relay.session? other := by
    intro hroom other
    rw [session?, (get?_noteAdmission enrolled admission other).1]
    exact htable hroom other
  have hstored : 0 < relay.sessions.capacity → ∀ other,
      ((enrolled.noteAdmission admission).store received).session? other =
      if other = client then some received
      else if relay.displaced? clock client datagram = some other then none
      else relay.session? other := by
    intro hroom other
    rw [session?_store ((hnoted hroom client).trans (if_pos rfl)) haddress, hnoted hroom]
    by_cases hother : other = client
    · rw [if_pos hother, if_pos hother]
    · simp only [if_neg hother]
  have hqueues : ∀ other,
      ((enrolled.noteAdmission admission).store received).queues.get? other =
        if relay.displaced? clock client datagram = some other then none
        else relay.queues.get? other := by
    intro other
    rw [store, (get?_noteAdmission enrolled admission other).2, hevicted, hwaiting]
  rw [accept, if_neg (headerSize_le_of_parse? hparse), hparse]
  simp only [acceptLogin, henroll, hreceive]
  refine ⟨admission.session, _, hsession, by rw [hreceive], ?_, ?_⟩
  · intro hroom other
    rw [hrun]
    split <;> exact hstored hroom other
  · intro other hother
    split
    · exact (Queues.get?_remove _ client other).trans ((if_neg hother).trans (hqueues other))
    · exact hqueues other

/-! ### Accepting an encrypted datagram -/

/-- **An encrypted datagram** goes to its sender's session, and to no other. -/
theorem session?_acceptEncrypted (relay : Relay) (clock : Clock) (client : Address)
    (datagram : Bytes) (other : Address) :
    (relay.acceptEncrypted clock client datagram).2.session? other =
      if other = client then
        (relay.session? client).map
          (·.run relay.book [.receive relay.scratch clock.now datagram])
      else relay.session? other := by
  rcases hsession : relay.session? client with _ | session
  · simp only [acceptEncrypted, hsession]
    by_cases hother : other = client
    · rw [if_pos hother, hother]
      exact hsession
    · rw [if_neg hother]
  · have hidentity :=
      (session.identity_receive relay.book relay.scratch clock.now datagram).1.trans
        (SessionTable.address_of_get? hsession)
    have hrun : session.run relay.book [.receive relay.scratch clock.now datagram] =
        (session.receive relay.book relay.scratch clock.now datagram).2.1 := by
      rw [Session.run_cons, Session.step_receive]
      rfl
    rw [Option.map_some, hrun]
    rcases hreceive : session.receive relay.book relay.scratch clock.now datagram with
      ⟨result, received, scratch⟩
    rw [hreceive] at hidentity
    simp only [acceptEncrypted, hsession, hreceive]
    exact @session?_store { relay with scratch } client session received hsession hidentity other

/-- What is accepted under the key of a session is labelled with its character. -/
theorem acceptEncrypted_eq_ok_iff {arrival : Arrival} :
    (relay.acceptEncrypted clock client datagram).1 = .ok arrival ↔
      ∃ session receipt, relay.session? client = some session ∧
        (session.receive relay.book relay.scratch clock.now datagram).1 = .ok receipt ∧
        arrival = ⟨client, session.character, receipt⟩ := by
  rcases hsession : relay.session? client with _ | session
  · simp only [acceptEncrypted, hsession]
    constructor
    · intro h
      cases h
    · rintro ⟨session, receipt, hnone, -⟩
      cases hnone
  · have hcharacter :=
      (session.identity_receive relay.book relay.scratch clock.now datagram).2
    rcases hreceive : session.receive relay.book relay.scratch clock.now datagram with
      ⟨result, received, scratch⟩
    rw [hreceive] at hcharacter
    simp only at hcharacter
    simp only [acceptEncrypted, hsession, hreceive, hcharacter]
    constructor
    · intro h
      rcases result with fault | receipt
      · cases h
      · exact ⟨session, receipt, rfl, by rw [hreceive], (Except.ok.inj h).symm⟩
    · rintro ⟨found, receipt, hfound, hreceipt, rfl⟩
      obtain rfl : session = found := Option.some.inj hfound
      rw [hreceive] at hreceipt
      simp only at hreceipt
      rw [hreceipt]
      rfl

/-- A datagram that is not accepted as a login is refused, or it is an encrypted one. -/
theorem accept_of_not_admits (hadmits : relay.admits? datagram = none) (clock : Clock)
    (client : Address) :
    (∃ fault, relay.accept clock client datagram = (.error fault, relay) ∧
        ∀ session : Session,
          session.run relay.book (relay.dealings clock datagram) = session) ∨
      Login.parse? datagram = .ok none ∧
        relay.accept clock client datagram = relay.acceptEncrypted clock client datagram := by
  rcases hparse : Login.parse? datagram with fault | _ | login
  · have hnothing : relay.dealings clock datagram = [] := by
      simp only [dealings, hparse, hadmits]
    rw [accept, hparse, hnothing]
    split
    · exact Or.inl ⟨_, rfl, fun _ => rfl⟩
    · exact Or.inl ⟨_, rfl, fun _ => rfl⟩
  · rw [accept, hparse]
    by_cases hshort : datagram.length < Frame.headerSize
    · rw [if_pos hshort]
      refine Or.inl ⟨_, rfl, fun session => ?_⟩
      have hleast : datagram.length < Frame.headerSize + Frame.checksumSize + 1 := by omega
      simp only [dealings, hparse]
      rw [Session.run_cons, Session.step_receive, Session.receive, if_pos hleast]
      rfl
    · rw [if_neg hshort]
      exact Or.inr ⟨rfl, rfl⟩
  · -- the login is valid, so what is missing is the key of its character
    rcases hprovider : relay.provider login.character with fault | material
    · have hnothing : relay.dealings clock datagram = [] := by
        simp only [dealings, hparse, hadmits]
      rw [accept, if_neg (headerSize_le_of_parse? hparse), hparse, hnothing]
      simp only [acceptLogin, enroll, hprovider]
      exact Or.inl ⟨fault, rfl, fun _ => rfl⟩
    · rw [admits?_eq_some_iff.mpr ⟨hparse, hprovider⟩] at hadmits
      cases hadmits

/-! ### Accepting a datagram -/

theorem newcomer?_eq_none_of_not_admits (hadmits : relay.admits? datagram = none) (clock : Clock)
    (client : Address) : relay.newcomer? clock client datagram = none := by
  rw [newcomer?, hadmits]
  rcases relay.session? client with _ | session <;> rfl

/-- **The sessions after a datagram.** -/
theorem session?_accept (hroom : 0 < relay.sessions.capacity) (clock : Clock)
    (client : Address) (datagram : Bytes) (other : Address) :
    (relay.accept clock client datagram).2.session? other =
      if other = client then
        ((relay.session? client).or (relay.newcomer? clock client datagram)).map
          (·.run relay.book (relay.dealings clock datagram))
      else if relay.displaced? clock client datagram = some other then none
      else relay.session? other := by
  rcases hadmits : relay.admits? datagram with _ | ⟨login, material⟩
  · -- nobody is new, so nobody has to make room
    have hnew := newcomer?_eq_none_of_not_admits hadmits clock client
    have hstays : relay.displaced? clock client datagram = none := by
      rw [displaced?, hnew]
      rfl
    rw [hnew, Option.or_none, hstays, if_neg (nofun : ¬ (none : Option Address) = some other)]
    rcases accept_of_not_admits hadmits clock client with ⟨fault, h, hrun⟩ | ⟨hparse, h⟩
    · rw [h]
      by_cases hother : other = client
      · rw [if_pos hother, hother]
        simp only [hrun, Option.map_id']
      · rw [if_neg hother]
    · have hdealings : relay.dealings clock datagram =
          [.receive relay.scratch clock.now datagram] := by
        simp only [dealings, hparse]
      rw [h, hdealings]
      exact session?_acceptEncrypted relay clock client datagram other
  · obtain ⟨session, after, hsession, h, hsessions, -⟩ :=
      accept_of_admits clock client hadmits
    rw [h, hsession]
    exact hsessions hroom other

/-- **The queues after a datagram**, but for its sender's. -/
theorem get?_queues_accept (clock : Clock) {client other : Address} (hother : other ≠ client)
    (datagram : Bytes) :
    (relay.accept clock client datagram).2.queues.get? other =
      if relay.displaced? clock client datagram = some other then none
      else relay.queues.get? other := by
  rcases hadmits : relay.admits? datagram with _ | ⟨login, material⟩
  · have hstays : relay.displaced? clock client datagram = none := by
      rw [displaced?, newcomer?_eq_none_of_not_admits hadmits clock client]
      rfl
    rw [hstays, if_neg (nofun : ¬ (none : Option Address) = some other)]
    rcases accept_of_not_admits hadmits clock client with ⟨fault, h, -⟩ | ⟨hparse, h⟩
    · rw [h]
    · rw [h, (Kept.acceptEncrypted relay clock client datagram).queues_eq]
  · obtain ⟨session, after, -, h, -, hqueues⟩ := accept_of_admits clock client hadmits
    rw [h]
    exact hqueues other hother

/-- **What an accepted datagram is labelled with**: its sender, and the character of the login,
or that of the session under whose key it was opened. -/
theorem accept_eq_ok_iff {arrival : Arrival} :
    (relay.accept clock client datagram).1 = .ok arrival ↔
      (∃ login material session, relay.admits? datagram = some (login, material) ∧
          (relay.session? client).or (relay.newcomer? clock client datagram) = some session ∧
          arrival = ⟨client, login.character,
            ((renew session login).receiveLogin clock.now datagram login).1⟩) ∨
        Login.parse? datagram = .ok none ∧
          (relay.acceptEncrypted clock client datagram).1 = .ok arrival := by
  rcases hadmits : relay.admits? datagram with _ | ⟨login, material⟩
  · constructor
    · intro h
      rcases accept_of_not_admits hadmits clock client with ⟨fault, heq, -⟩ | ⟨hparse, heq⟩
      · rw [heq] at h
        cases h
      · rw [heq] at h
        exact Or.inr ⟨hparse, h⟩
    · rintro (⟨login, material, session, hnot, -⟩ | ⟨hparse, h⟩)
      · cases hnot
      · obtain ⟨session, receipt, hsession, hreceipt, rfl⟩ := acceptEncrypted_eq_ok_iff.mp h
        obtain ⟨after, haccept, -⟩ := accept_eq_ok hsession hparse hreceipt
        rw [haccept]
  · obtain ⟨session, after, hsession, heq, -⟩ := accept_of_admits clock client hadmits
    rw [heq]
    constructor
    · intro h
      exact Or.inl ⟨login, material, session, rfl, hsession, (Except.ok.inj h).symm⟩
    · rintro (⟨login', material', session', hadmits', hsession', rfl⟩ | ⟨hparse, -⟩)
      · obtain ⟨rfl, rfl⟩ := Prod.mk.inj (Option.some.inj hadmits')
        rw [Option.some.inj (hsession.symm.trans hsession')]
      · rw [(admits?_eq_some_iff.mp hadmits).1] at hparse
        cases hparse

/-- What is accepted is labelled with its sender. -/
theorem client_of_accept {arrival : Arrival}
    (h : (relay.accept clock client datagram).1 = .ok arrival) : arrival.client = client := by
  rcases accept_eq_ok_iff.mp h with ⟨login, material, session, -, -, rfl⟩ | ⟨-, h⟩
  · rfl
  · obtain ⟨session, receipt, -, -, rfl⟩ := acceptEncrypted_eq_ok_iff.mp h
    rfl

/-- What was counted makes no difference to what is accepted. -/
theorem accept_of_count {change : Metrics → Metrics} {arrival : Arrival}
    (h : ((relay.count change).accept clock client datagram).1 = .ok arrival) :
    (relay.accept clock client datagram).1 = .ok arrival := by
  rw [accept_eq_ok_iff, acceptEncrypted_eq_ok_iff] at h ⊢
  exact h

/-! ### Operations that handle a datagram -/

/-- Once a datagram was accepted, handling it does not change the sessions. -/
theorem sessions_handle (world : World) (journal : Journal) (relay : Relay) (clock : Clock)
    (client : Address) (datagram : Bytes) :
    (perform (relay.handle world.outlets clock client datagram) journal).1.2.sessions =
      (relay.accept clock client datagram).2.sessions := by
  have hforward : ∀ (ready : Relay) (arrival : Arrival) (taken lost : Nat),
      (ready.noteForward arrival taken lost).sessions = ready.sessions := by
    intro ready arrival taken lost
    rw [noteForward]
    split <;> rfl
  rcases haccept : relay.accept clock client datagram with ⟨fault | arrival, after⟩
  · rw [perform_handle_error haccept]
  · by_cases hrefused : Refused world journal client arrival.receipt.resend
    · obtain ⟨bytes, reason, hresend, hsend⟩ := hrefused
      rw [perform_handle_refused haccept hresend hsend]
      rfl
    · obtain ⟨resent, ready, results, -, hready, -, hhandle⟩ :=
        perform_handle_ok haccept hrefused
      rw [hhandle, hforward]
      rcases hready with rfl | ⟨size, rfl⟩ <;> rfl

/-- **The tables after handling a datagram** are those after accepting it, whatever was counted
before. -/
theorem tables_datagram (world : World) (state : State) {op : Op}
    (h : op.datagram? = some (clock, client, datagram)) : ∃ change : Metrics → Metrics,
      (step world state op).after.relay.sessions =
        ((state.relay.count change).accept clock client datagram).2.sessions ∧
      (step world state op).after.relay.queues =
        ((state.relay.count change).accept clock client datagram).2.queues := by
  cases op with
  | handle clock client datagram =>
    cases h
    exact ⟨id, sessions_handle world state.journal state.relay clock client datagram,
      (Kept.handle world state.journal state.relay clock client datagram).queues_eq⟩
  | receive clock client datagram =>
    cases h
    refine ⟨_, ?_, (Kept.receive world state.journal state.relay clock client datagram).queues_eq⟩
    rw [← sessions_handle world state.journal]
    have hfailed : ∀ (after : Relay) (fault : Fault),
        (after.countFailure fault).sessions = after.sessions := by
      intro after fault
      unfold countFailure
      split
      · rfl
      · rfl
      · split <;> rfl
    rw [step, Op.apply, perform_bind, perform_pure, Relay.receive, perform_bind]
    simp only
    rcases perform ((state.relay.count (·.datagramReceived datagram.length.toUInt64)).handle
      world.outlets clock client datagram) state.journal with ⟨⟨fault | taken, after⟩, journal⟩
    · exact hfailed after fault
    · rfl
  | enqueue | enqueueRouted | takeReply | flush | keepAlive | sweep | disconnect | provide =>
    cases h

/-- **The sessions after handling a datagram.** -/
theorem session?_datagram (world : World) {state : State}
    (hroom : 0 < state.relay.sessions.capacity) {op : Op}
    (h : op.datagram? = some (clock, client, datagram)) (other : Address) :
    (step world state op).after.relay.session? other =
      if other = client then
        ((state.relay.session? client).or (state.relay.newcomer? clock client datagram)).map
          (·.run state.relay.book (state.relay.dealings clock datagram))
      else if state.relay.displaced? clock client datagram = some other then none
      else state.relay.session? other := by
  obtain ⟨change, hsessions, -⟩ := tables_datagram world state h
  rw [session?, hsessions]
  exact @session?_accept (state.relay.count change) hroom clock client datagram other

/-- **The queues after handling a datagram**, but for its sender's. -/
theorem get?_queues_datagram (world : World) (state : State) {op : Op}
    (h : op.datagram? = some (clock, client, datagram)) (hother : other ≠ client) :
    (step world state op).after.relay.queues.get? other =
      if state.relay.displaced? clock client datagram = some other then none
      else state.relay.queues.get? other := by
  obtain ⟨change, -, hqueues⟩ := tables_datagram world state h
  rw [hqueues]
  exact @get?_queues_accept (state.relay.count change) clock client other hother datagram

end Relay

end ZoneRelay
