import Mathlib.Data.List.DropRight
import ZoneRelay.Proofs.Relay.Effects

/-!
# Clients do not touch each other

One table holds the sessions of all clients, one the queues, and one pool of buffers serves them
all. **What is done for one client leaves the others alone** (`ZoneRelay.Relay.clients_apart`):
their sessions and their queues stay as they are to the last bit, and nothing is written to them
or published from them, whatever the bytes of a datagram and whether or not it is accepted.

There is one exception. A login of a client without a session needs room for it, and in a full
table another client has to make room (`ZoneRelay.Relay.Op.Crowds`). **It is the one whose
session was created first**, and it loses its session and its queue; the others again stay as
they are.

When a session was created is read off the run that led to a state
(`ZoneRelay.Relay.born`): it is the number of operations up to the last one before which its
client had no session, and after which it had one. The table keeps its sessions in this order
(`ZoneRelay.Relay.aged_run`), as a step adds at most one client, at the end
(`ZoneRelay.Relay.clients_step`).
-/

namespace ZoneRelay

open ZoneRelay.Frame (SubPacket)

namespace Relay

open World

variable {config : Config} {book : Code.Book} {operations gone : Nat} {relay : Relay}
  {state : State} {clock : Clock} {client other : Address} {datagram : Bytes}

/-! ### Making room -/

/-- The first session of a client that an operation logs in. -/
def Op.newcomer? (relay : Relay) (op : Op) : Option Session :=
  op.datagram?.bind fun arrived => relay.newcomer? arrived.1 arrived.2.1 arrived.2.2

/-- The client that has to make room for it. -/
def Op.displaced? (relay : Relay) (op : Op) : Option Address :=
  op.datagram?.bind fun arrived => relay.displaced? arrived.1 arrived.2.1 arrived.2.2

/-- **An operation crowds the table**: it logs in a client that has no session, and the table is
full. -/
def Op.Crowds (relay : Relay) (op : Op) : Prop :=
  (op.newcomer? relay).isSome ∧ relay.sessions.capacity ≤ relay.sessions.size

instance (relay : Relay) (op : Op) : Decidable (op.Crowds relay) :=
  inferInstanceAs (Decidable (_ ∧ _))

theorem Op.displaced?_eq (relay : Relay) (op : Op) :
    op.displaced? relay =
      (op.newcomer? relay).bind fun session => (relay.sessions.insert session).1 := by
  rw [displaced?, newcomer?, Option.bind_assoc]
  rfl

/-- **Whoever has to make room** is the first in the table, and nobody has to as long as it is
not full. -/
theorem displaced?_cases (hroom : 0 < relay.sessions.capacity) (op : Op) :
    (¬ op.Crowds relay ∧ op.displaced? relay = none) ∨
      op.Crowds relay ∧ ∃ oldest rest, relay.sessions.addresses = oldest :: rest ∧
        op.displaced? relay = some oldest := by
  rw [Op.displaced?_eq, Op.Crowds]
  rcases hnew : op.newcomer? relay with _ | session
  · exact Or.inl ⟨fun h => absurd h.1 (by simp), rfl⟩
  · have hfound : relay.sessions.get? session.address = none := by
      obtain ⟨⟨clock, client, datagram⟩, -, hsession⟩ := Option.bind_eq_some_iff.mp hnew
      obtain ⟨hnone, login, material, -, rfl⟩ := newcomer?_eq_some_iff.mp hsession
      exact hnone
    rcases SessionTable.insert_cases hfound hroom with
      ⟨hfits, hinsert⟩ | ⟨hfull, oldest, rest, hsessions, hinsert⟩
    · refine Or.inl ⟨fun h => ?_, by rw [Option.bind_some, hinsert]⟩
      have hle := h.2
      omega
    · refine Or.inr ⟨⟨rfl, Nat.le_of_lt_succ hfull⟩, oldest.address, rest.map (·.address), ?_, ?_⟩
      · rw [SessionTable.addresses, hsessions, List.map_cons]
      · rw [Option.bind_some, hinsert]

/-! ### One step -/

/-- **A client is left alone**: its session and its queue are as before. -/
structure LeftAlone (client : Address) (before after : Relay) : Prop where
  session_eq : after.session? client = before.session? client
  queue_eq : after.queues.get? client = before.queues.get? client

theorem LeftAlone.enqueue (relay : Relay) (packets : List SubPacket) (hother : other ≠ client) :
    LeftAlone other relay (relay.enqueue client packets).2 := by
  unfold Relay.enqueue
  rcases relay.session? client with _ | session
  · exact ⟨rfl, rfl⟩
  · exact ⟨rfl, (Queues.get?_add _ _ client other _).trans (if_neg hother)⟩

/-- Packing for a client is a run of its session, and changes no other one. -/
theorem session?_assemble {session : Session} (hsession : relay.session? client = some session)
    (clock : Clock) (packets : List SubPacket) (other : Address) :
    (relay.assemble clock session packets).2.session? other =
      if other = client then
        some (session.run relay.book [.assemble relay.packetLimit clock.timestamp packets])
      else relay.session? other := by
  have hidentity := Session.identity_step relay.book session
    (.assemble relay.packetLimit clock.timestamp packets)
  rw [Session.run_cons]
  rw [Session.step_assemble, SessionTable.address_of_get? hsession] at *
  rcases hpack : session.assemble relay.book relay.packetLimit clock.timestamp packets with
    ⟨packed, stored⟩
  rw [hpack] at hidentity
  rw [Relay.assemble, hpack]
  exact session?_store hsession hidentity.1 other

/-- **A sign of life** is packing nothing. -/
theorem session?_keepAlive (world : World) (journal : Journal) (relay : Relay) (clock : Clock)
    (client other : Address) :
    (perform (relay.keepAlive world.outlets clock client) journal).1.2.session? other =
      if other = client then
        (relay.session? client).map
          (·.run relay.book [.assemble relay.packetLimit clock.timestamp []])
      else relay.session? other := by
  rcases hsession : relay.session? client with _ | session
  · simp only [Relay.keepAlive, hsession]
    by_cases hother : other = client
    · rw [if_pos hother, hother]
      exact hsession
    · rw [if_neg hother]
      rfl
  · have hpacked := session?_assemble hsession clock [] other
    rcases hassemble : relay.assemble clock session [] with ⟨result, after⟩
    rw [hassemble] at hpacked
    rcases result with fault | datagram
    · simp only [Relay.keepAlive, hsession, hassemble]
      exact hpacked
    · simp only [Relay.keepAlive, hsession, hassemble, perform_write]
      rcases world.send journal client datagram.bytes with reason | taken
      · exact hpacked
      · exact hpacked

theorem LeftAlone.keepAlive (world : World) (journal : Journal) (relay : Relay) (clock : Clock)
    (hother : other ≠ client) :
    LeftAlone other relay
      (perform (relay.keepAlive world.outlets clock client) journal).1.2 := by
  refine ⟨(session?_keepAlive world journal relay clock client other).trans (if_neg hother), ?_⟩
  rw [(Kept.keepAlive world journal relay clock client).queues_eq]

/-- **What is done for one client leaves another alone**, unless that one has to make room. -/
theorem leftAlone_step (hroom : 0 < state.relay.sessions.capacity) (world : World) {op : Op}
    (hop : op.client? = some client) (hother : other ≠ client)
    (hstays : op.displaced? state.relay ≠ some other) :
    LeftAlone other state.relay (step world state op).after.relay := by
  rcases hdatagram : op.datagram? with _ | ⟨clock, sender, datagram⟩
  · cases op with
    | handle | receive => cases hdatagram
    | enqueue addressee packets =>
      cases hop
      exact .enqueue state.relay packets hother
    | enqueueRouted routed =>
      cases hop
      exact .enqueue state.relay _ hother
    | takeReply reply =>
      rcases reply with fault | routed
      · cases hop
      · cases hop
        exact .enqueue state.relay _ hother
    | keepAlive clock addressee =>
      cases hop
      have halone := LeftAlone.keepAlive world state.journal state.relay clock hother
      exact halone
    | disconnect addressee =>
      cases hop
      refine ⟨?_, (Queues.get?_remove _ client other).trans (if_neg hother)⟩
      exact (SessionTable.get?_remove _ client other).trans (if_neg hother)
    | flush | sweep | provide => cases hop
  · -- of a datagram all is known at once, whether it is accepted or not
    have hsender : sender = client :=
      Option.some.inj ((Op.client?_of_datagram? hdatagram).symm.trans hop)
    have hsame : state.relay.displaced? clock sender datagram ≠ some other := by
      rwa [Op.displaced?, hdatagram] at hstays
    rw [hsender] at hdatagram hsame
    refine ⟨?_, ?_⟩
    · rw [session?_datagram world hroom hdatagram, if_neg hother, if_neg hsame]
    · rw [get?_queues_datagram world state hdatagram hother, if_neg hsame]

/-- **A login that crowds the table** gives its client a session, takes that of the first in the
table with its queue, and leaves everyone else alone. -/
theorem crowded_step (hroom : 0 < state.relay.sessions.capacity) (world : World) {op : Op}
    (hop : op.client? = some client) (hcrowds : op.Crowds state.relay) :
    ∃ oldest rest, state.relay.sessions.addresses = oldest :: rest ∧ oldest ≠ client ∧
      (step world state op).after.relay.session? oldest = none ∧
      (step world state op).after.relay.queues.get? oldest = none ∧
      ((step world state op).after.relay.session? client).isSome ∧
      ∀ other, other ≠ client → other ≠ oldest →
        LeftAlone other state.relay (step world state op).after.relay := by
  rcases displaced?_cases hroom op with ⟨hnot, -⟩ | ⟨-, oldest, rest, hclients, hdisplaced⟩
  · exact absurd hcrowds hnot
  obtain ⟨⟨clock, sender, datagram⟩, hdatagram, hsender⟩ := Option.bind_eq_some_iff.mp hdisplaced
  obtain rfl : sender = client :=
    Option.some.inj ((Op.client?_of_datagram? hdatagram).symm.trans hop)
  obtain ⟨session, hsession, -⟩ := Option.bind_eq_some_iff.mp hsender
  obtain ⟨hnone, -⟩ := newcomer?_eq_some_iff.mp hsession
  have hold : oldest ≠ sender := by
    rintro rfl
    exact SessionTable.get?_eq_none_iff.mp hnone (hclients ▸ List.mem_cons_self)
  refine ⟨oldest, rest, hclients, hold, ?_, ?_, ?_, ?_⟩
  · rw [session?_datagram world hroom hdatagram, if_neg hold, if_pos hsender]
  · rw [get?_queues_datagram world state hdatagram hold, if_pos hsender]
  · rw [session?_datagram world hroom hdatagram, if_pos rfl, hnone, hsession]
    rfl
  · intro other hother hne
    refine leftAlone_step hroom world hop hother ?_
    rw [hdisplaced]
    exact fun heq => hne (Option.some.inj heq).symm

/-! ### Who joins -/

/-- A table that was made as configured has room for a session. -/
theorem Sound.room (h : Sound config book operations gone relay) :
    0 < relay.sessions.capacity :=
  Nat.lt_of_lt_of_eq (Nat.lt_of_lt_of_le Nat.zero_lt_one (Nat.le_max_left 1 _))
    h.balanced.capacity_eq.symm

/-- **A datagram adds nobody to the clients, or its sender at the end**, in whose favour another
one may go. -/
theorem clients_accept (hroom : 0 < relay.sessions.capacity) (clock : Clock) (client : Address)
    (datagram : Bytes) :
    (relay.accept clock client datagram).2.register.clients = relay.register.clients ∨
      client ∉ relay.register.clients ∧ ∃ kept, kept.Sublist relay.register.clients ∧
        (relay.accept clock client datagram).2.register.clients = kept ++ [client] := by
  rcases hadmits : relay.admits? datagram with _ | ⟨login, material⟩
  · rcases accept_of_not_admits hadmits clock client with ⟨fault, heq, -⟩ | ⟨-, heq⟩
    · rw [heq]
      exact Or.inl rfl
    · rw [heq, (Kept.acceptEncrypted relay clock client datagram).register_eq]
      exact Or.inl rfl
  · obtain ⟨hparse, -⟩ := admits?_eq_some_iff.mp hadmits
    obtain ⟨admission, enrolled, henroll, -⟩ := session?_enroll clock client hadmits
    have hclients : (relay.accept clock client datagram).2.register.clients =
        enrolled.register.clients := by
      have hnoted : (enrolled.noteAdmission admission).register.clients =
          enrolled.register.clients :=
        congrArg SessionTable.addresses (get?_noteAdmission enrolled admission client).1
      rcases hreceive : (renew admission.session login).receiveLogin clock.now datagram login with
        ⟨receipt, received⟩
      rw [accept, if_neg (headerSize_le_of_parse? hparse), hparse]
      simp only [acceptLogin, henroll, hreceive]
      rw [← hnoted, ← (Kept.store (enrolled.noteAdmission admission) received).register_eq]
      split <;> rfl
    rw [hclients]
    rcases Sound.enroll_cases henroll with
      ⟨-, -, rfl⟩ | ⟨session, rfl, hnone, -, hinsert, -⟩
    · exact Or.inl rfl
    · refine Or.inr ⟨SessionTable.get?_eq_none_iff.mp hnone, ?_⟩
      rcases SessionTable.insert_cases hnone hroom with
        ⟨-, hcase⟩ | ⟨-, oldest, rest, -, hcase⟩
      · obtain ⟨-, htable⟩ := Prod.mk.inj (hinsert.symm.trans hcase)
        refine ⟨relay.register.clients, List.Sublist.refl _, ?_⟩
        rw [register, htable]
        simp [register, SessionTable.addresses]
      · obtain ⟨-, htable⟩ := Prod.mk.inj (hinsert.symm.trans hcase)
        refine ⟨(relay.sessions.remove oldest.address).addresses, ?_, ?_⟩
        · rw [SessionTable.addresses_remove]
          exact List.filter_sublist
        · rw [register, htable]
          simp [SessionTable.addresses]

/-- An operation that handles no datagram adds nobody to the clients. -/
theorem clients_sublist (h : Sound config book operations gone state.relay) (world : World)
    {op : Op} (hop : op.datagram? = none) :
    (step world state op).after.relay.register.clients.Sublist state.relay.register.clients := by
  have hsame : ∀ {after : Relay}, after.register = state.relay.register →
      after.register.clients.Sublist state.relay.register.clients := fun heq =>
    heq ▸ List.Sublist.refl _
  cases op with
  | handle | receive => cases hop
  | enqueue client packets => exact hsame (Sound.register_enqueue state.relay client packets)
  | enqueueRouted routed => exact hsame (Sound.register_enqueue state.relay _ _)
  | takeReply reply =>
    rcases reply with fault | routed
    · exact hsame rfl
    · exact hsame (Sound.register_enqueue state.relay _ _)
  | flush clock => exact hsame (h.flush world clock state.journal).2
  | keepAlive clock client =>
    exact hsame (Kept.keepAlive world state.journal state.relay clock client).register_eq
  | sweep clock busy =>
    have hsublist := state.relay.sessions.addresses_evictIdle_sublist clock.now
      state.relay.config.session.idleTimeout busy
    change (state.relay.sweepExcept clock busy).2.register.clients.Sublist _
    unfold sweepExcept
    simp only
    split
    · exact List.Sublist.refl _
    · exact hsublist
  | disconnect client =>
    change (state.relay.sessions.remove client).addresses.Sublist _
    rw [SessionTable.addresses_remove]
    exact List.filter_sublist
  | provide provider => exact hsame rfl

/-- **A step adds nobody to the clients, or one at the end**; any others may go. -/
theorem clients_step (h : Sound config book operations gone state.relay) (world : World)
    (op : Op) :
    (step world state op).after.relay.register.clients.Sublist state.relay.register.clients ∨
      ∃ client kept, client ∉ state.relay.register.clients ∧
        kept.Sublist state.relay.register.clients ∧
        (step world state op).after.relay.register.clients = kept ++ [client] := by
  rcases hdatagram : op.datagram? with _ | ⟨clock, client, datagram⟩
  · exact Or.inl (clients_sublist h world hdatagram)
  · obtain ⟨change, hsessions, -⟩ := tables_datagram world state hdatagram
    have hclients : (step world state op).after.relay.register.clients =
        ((state.relay.count change).accept clock client datagram).2.register.clients :=
      congrArg SessionTable.addresses hsessions
    rw [hclients]
    rcases @clients_accept (state.relay.count change) h.room clock client datagram with
      heq | ⟨hnew, kept, hkept, heq⟩
    · rw [heq]
      exact Or.inl (List.Sublist.refl _)
    · exact Or.inr ⟨client, kept, hnew, hkept, heq⟩

/-! ### When sessions were created -/

/-- Whether a step creates a client's session: there was none before, and there is one after. -/
def Step.creates (client : Address) (step : Step) : Bool :=
  (step.before.relay.session? client).isNone && (step.after.relay.session? client).isSome

/-- **When a client's session was created**: the number of operations of a run up to the last one
that created it. -/
def born (world : World) (state : State) (ops : List Op) (client : Address) : Nat :=
  ((trace world state ops).rdropWhile fun step => !step.creates client).length

theorem born_le (world : World) (state : State) (ops : List Op) (client : Address) :
    born world state ops client ≤ ops.length := by
  rw [← length_trace world state ops]
  exact (List.rdropWhile_prefix _ _).length_le

theorem born_append_singleton (world : World) (state : State) (ops : List Op) (op : Op)
    (client : Address) : born world state (ops ++ [op]) client =
      if (step world (run world state ops) op).creates client then ops.length + 1
      else born world state ops client := by
  rw [born, trace_append, trace, trace, List.rdropWhile_concat]
  rcases (step world (run world state ops) op).creates client with _ | _
  · rfl
  · simp [length_trace]

/-- A client that has a session is not given one. -/
theorem creates_eq_false {found : Step} (h : client ∈ found.before.relay.register.clients) :
    found.creates client = false := by
  have hsome : (found.before.relay.session? client).isSome := SessionTable.isSome_get?_iff.mpr h
  rw [Step.creates, Option.isNone_eq_false_iff.mpr hsome, Bool.false_and]

theorem creates_eq_true {found : Step} (hbefore : client ∉ found.before.relay.register.clients)
    (hafter : client ∈ found.after.relay.register.clients) : found.creates client = true := by
  have hnone : found.before.relay.session? client = none :=
    SessionTable.get?_eq_none_iff.mpr hbefore
  have hsome : (found.after.relay.session? client).isSome := SessionTable.isSome_get?_iff.mpr hafter
  rw [Step.creates, hnone, hsome]
  rfl

/-- **The table keeps its sessions in the order in which they were created.** -/
theorem aged_run (config : Config) (book : Code.Book) (provider : KeyProvider)
    (adjustment : KeyAdjustment) (world : World) (ops : List Op) :
    let first := fresh config book provider adjustment
    (run world first ops).relay.register.clients.Pairwise fun a b =>
      born world first ops a < born world first ops b := by
  intro first
  have hfresh : Sound config book 0 0 first.relay := Sound.fresh config book provider adjustment
  induction ops using List.reverseRecOn with
  | nil => exact List.Pairwise.nil
  | append_singleton ops op ih =>
    have hsound := sound_run hfresh world ops
    -- who had a session before the last operation is as old as before it
    have hkept : ∀ {kept : List Address},
        kept.Sublist (run world first ops).relay.register.clients →
        kept.Pairwise fun a b =>
          born world first (ops ++ [op]) a < born world first (ops ++ [op]) b := by
      intro kept hsublist
      have hsame : ∀ a ∈ kept, born world first (ops ++ [op]) a = born world first ops a := by
        intro a hmem
        rw [born_append_singleton, creates_eq_false (hsublist.subset hmem)]
        rfl
      refine (ih.sublist hsublist).imp_of_mem fun {a b} ha hb hlt => ?_
      rwa [hsame a ha, hsame b hb]
    rw [run_append]
    rcases clients_step hsound world op with hsublist | ⟨client, kept, hnew, hsublist, heq⟩
    · exact hkept hsublist
    · have heq' : (run world (run world first ops) [op]).relay.register.clients =
          kept ++ [client] := heq
      rw [heq', List.pairwise_append]
      refine ⟨hkept hsublist, List.pairwise_singleton _ _, ?_⟩
      -- the new client is younger than all that were there
      intro a ha b hb
      rw [List.mem_singleton.mp hb, born_append_singleton, born_append_singleton,
        creates_eq_false (hsublist.subset ha),
        creates_eq_true hnew (heq ▸ List.mem_append_right _ (List.mem_singleton_self client))]
      exact Nat.lt_succ_of_le (born_le world first ops a)

/-! ### The main statement -/

/-- **Clients do not touch each other.** Take any run, and behind it any operation that is
addressed to a client: a datagram with any bytes, packets for its queue, a sign of life, or its
disconnection. Whatever comes out of it, all it does to the world is done for that client, and
the session and the queue of every other client are as before – unless it is the login of a
client without a session, which finds the table full. Then that client has a session afterwards;
of the others the one whose session was created first loses its session and its queue, and all
the rest are as before. -/
theorem clients_apart (config : Config) (book : Code.Book) (provider : KeyProvider)
    (adjustment : KeyAdjustment) (world : World) (ops : List Op) {op : Op} {client : Address}
    (hop : op.client? = some client) :
    let first := fresh config book provider adjustment
    let before := run world first ops
    let found := step world before op
    found.after.journal = before.journal ++ found.effects ∧
      (∀ effect ∈ found.effects, effect.client = client) ∧
      (¬ op.Crowds before.relay → ∀ other, other ≠ client →
        LeftAlone other before.relay found.after.relay) ∧
      (op.Crowds before.relay → ∃ oldest, oldest ≠ client ∧
        (before.relay.session? oldest).isSome ∧
        (∀ other, (before.relay.session? other).isSome → other ≠ oldest →
          born world first ops oldest < born world first ops other) ∧
        found.after.relay.session? oldest = none ∧
        found.after.relay.queues.get? oldest = none ∧
        (found.after.relay.session? client).isSome ∧
        ∀ other, other ≠ client → other ≠ oldest →
          LeftAlone other before.relay found.after.relay) := by
  intro first before found
  have hsound := sound_run (Sound.fresh config book provider adjustment) world ops
  have hroom : 0 < before.relay.sessions.capacity := hsound.room
  obtain ⟨hjournal, heffects⟩ := effects_step world before op
  refine ⟨hjournal, fun effect hmem => (heffects effect hmem).1 client hop, ?_, ?_⟩
  · intro hnot
    rcases displaced?_cases hroom op with ⟨-, hnone⟩ | ⟨hcrowds, -⟩
    · intro other hother
      refine leftAlone_step hroom world hop hother ?_
      rw [hnone]
      exact nofun
    · exact absurd hcrowds hnot
  · intro hcrowds
    obtain ⟨oldest, rest, hclients, hold, hsession, hqueue, hjoined, hothers⟩ :=
      crowded_step hroom world hop hcrowds
    -- the first in the table is the one whose session was created first
    have hordered : (oldest :: rest).Pairwise fun a b =>
        born world first ops a < born world first ops b :=
      hclients ▸ aged_run config book provider adjustment world ops
    have hlive : ∀ other, (before.relay.session? other).isSome ↔ other ∈ oldest :: rest :=
      fun other => hclients ▸ SessionTable.isSome_get?_iff
    refine ⟨oldest, hold, (hlive oldest).mpr List.mem_cons_self, ?_, hsession, hqueue, hjoined,
      hothers⟩
    intro other hother hne
    have hmem := (List.mem_cons.mp ((hlive other).mp hother)).resolve_left hne
    exact (List.pairwise_cons.mp hordered).1 other hmem

/-- A configuration with room for two sessions. -/
def twoSeats : Config :=
  { Config.standard with server := { Config.standard.server with maxSessions := 2 } }

/-- Two clients log in, one after the other, and a packet waits for each. -/
def seated : List Op :=
  [.handle ⟨0, 0⟩ (.v4 127 0 0 1 5000) (Login.datagram 7 0 1 []),
    .handle ⟨0, 0⟩ (.v4 127 0 0 1 5001) (Login.datagram 8 0 1 []),
    .enqueue (.v4 127 0 0 1 5000) [⟨0x15, 0, [1]⟩],
    .enqueue (.v4 127 0 0 1 5001) [⟨0x15, 0, [2]⟩]]

/-- A relay with room for two, without sessions. -/
def small : State :=
  fresh twoSeats (bookOf .standard) (fun _ => .ok ⟨.ofText "secret", false⟩) .none

/-- The login of a third client. -/
def third : Op := .handle ⟨1, 0⟩ (.v4 127 0 0 1 5002) (Login.datagram 9 0 1 [])

/-- A third client logs in: the first one goes with its queue, and the second is left alone with
what waits for it. -/
theorem clients_apart_third :
    let before := run (answering (.ok ())) small seated
    let after := (step (answering (.ok ())) before third).after
    third.Crowds before.relay ∧
      (before.relay.session? (.v4 127 0 0 1 5000)).isSome ∧
      (before.relay.session? (.v4 127 0 0 1 5001)).isSome ∧
      before.relay.queues.get? (.v4 127 0 0 1 5001) = some [⟨0x15, 0, [2]⟩] ∧
      after.relay.session? (.v4 127 0 0 1 5000) = none ∧
      after.relay.queues.get? (.v4 127 0 0 1 5000) = none ∧
      LeftAlone (.v4 127 0 0 1 5001) before.relay after.relay := by
  have hclients : (run (answering (.ok ())) small seated).relay.sessions.addresses =
      [.v4 127 0 0 1 5000, .v4 127 0 0 1 5001] := by decide +kernel
  have hcrowds : third.Crowds (run (answering (.ok ())) small seated).relay := by decide +kernel
  have hwaiting : (run (answering (.ok ())) small seated).relay.queues.get? (.v4 127 0 0 1 5001) =
      some [⟨0x15, 0, [2]⟩] := by decide +kernel
  have hborn : born (answering (.ok ())) small seated (.v4 127 0 0 1 5000) = 1 ∧
      born (answering (.ok ())) small seated (.v4 127 0 0 1 5001) = 2 := by
    decide +kernel
  have hapart := clients_apart twoSeats (bookOf .standard)
    (fun _ => .ok ⟨.ofText "secret", false⟩) .none (answering (.ok ())) seated
    (rfl : third.client? = some (.v4 127 0 0 1 5002))
  rw [← small] at hapart
  obtain ⟨-, -, -, hcrowded⟩ := hapart
  -- what the state is made of is not needed any more
  generalize run (answering (.ok ())) small seated = before at *
  have hlive : ∀ other, (before.relay.session? other).isSome ↔
      other ∈ [Address.v4 127 0 0 1 5000, .v4 127 0 0 1 5001] := fun other =>
    hclients ▸ SessionTable.isSome_get?_iff
  have hfirst := (hlive (.v4 127 0 0 1 5000)).mpr (by decide)
  have hsecond := (hlive (.v4 127 0 0 1 5001)).mpr (by decide)
  obtain ⟨oldest, -, hold, hage, hsession, hqueue, -, hothers⟩ := hcrowded hcrowds
  have hmem := (hlive oldest).mp hold
  simp only [List.mem_cons, List.not_mem_nil, or_false] at hmem
  rcases hmem with rfl | rfl
  · exact ⟨hcrowds, hfirst, hsecond, hwaiting, hsession, hqueue, hothers _ (by decide) (by decide)⟩
  · -- the second client is not the older one
    have hlt := hage _ hfirst (by decide)
    rw [hborn.1, hborn.2] at hlt
    exact absurd hlt (by decide)

end Relay

end ZoneRelay
