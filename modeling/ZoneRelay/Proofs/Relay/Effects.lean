import ZoneRelay.Proofs.Relay.Admission

/-!
# What an operation does to the world

The journal only ever grows. What an operation adds to it depends on whom it is addressed to
(`ZoneRelay.Relay.Op.client?`): a datagram may have the last one sent again and has its packets
offered to the bus, a sign of life is one datagram, and emptying the queues sends datagrams to
anyone. **Only datagrams that arrive have anything offered to the bus**
(`ZoneRelay.Relay.published_step`), and only what they brought.

An action is described by a property that all it does to the world has
(`ZoneRelay.Relay.Does`). It passes through the constructions that actions are made of, so that
it is read off an action as it is written.
-/

namespace ZoneRelay

open ZoneRelay.Frame (SubPacket)

/-- The client that something is done for: that a datagram is written to, or that a packet comes
from. -/
def Effect.client : Effect → Address
  | sent client .. => client
  | offered routed _ => routed.client

namespace Relay

open World

/-! ### Actions -/

/-- **All that an action does to the world has a property.** -/
def Does {α : Type} (P : Effect → Prop) (action : StateM Journal α) : Prop :=
  ∀ journal, ∃ effects, (perform action journal).2 = journal ++ effects ∧
    ∀ effect ∈ effects, P effect

section Does

variable {α β : Type} {P Q : Effect → Prop} {world : World}

theorem Does.mono {action : StateM Journal α} (h : Does P action)
    (himp : ∀ effect, P effect → Q effect) : Does Q action := by
  intro journal
  obtain ⟨effects, hjournal, hall⟩ := h journal
  exact ⟨effects, hjournal, fun effect hmem => himp effect (hall effect hmem)⟩

theorem Does.pure (a : α) : Does P (pure a : StateM Journal α) :=
  fun journal => ⟨[], (List.append_nil journal).symm, nofun⟩

theorem Does.bind {action : StateM Journal α} {next : α → StateM Journal β} (h : Does P action)
    (hnext : ∀ a, Does P (next a)) : Does P (action >>= next) := by
  intro journal
  obtain ⟨first, hfirst, hall⟩ := h journal
  obtain ⟨second, hsecond, hall'⟩ := hnext (perform action journal).1 (perform action journal).2
  refine ⟨first ++ second, ?_, ?_⟩
  · rw [perform_bind, hsecond, hfirst, List.append_assoc]
  · intro effect hmem
    rcases List.mem_append.mp hmem with hmem | hmem
    · exact hall effect hmem
    · exact hall' effect hmem

theorem Does.write (relay : Relay) {client : Address} {bytes : Bytes}
    (h : ∀ result, P (.sent client bytes result)) :
    Does P (relay.write world.outlets client bytes) := by
  intro journal
  refine ⟨[.sent client bytes (world.send journal client bytes)], ?_, ?_⟩
  · rw [perform_write]
  · intro effect hmem
    rw [List.mem_singleton.mp hmem]
    exact h _

theorem Does.publish {routed : Bus.Routed} (h : ∀ result, P (.offered routed result)) :
    Does P (world.outlets.publish routed) := by
  intro journal
  refine ⟨[.offered routed (world.publish journal routed)], rfl, ?_⟩
  intro effect hmem
  rw [List.mem_singleton.mp hmem]
  exact h _

theorem Does.publishAll {packets : List Bus.Routed}
    (h : ∀ routed ∈ packets, ∀ result, P (.offered routed result)) :
    Does P (publishAll world.outlets packets) := by
  induction packets with
  | nil => exact .pure _
  | cons routed rest ih =>
    have hrest := ih fun other hmem => h other (List.mem_cons_of_mem _ hmem)
    exact (Does.publish (h routed List.mem_cons_self)).bind fun _ => hrest.bind fun _ => .pure _

end Does

/-! ### Datagrams that arrive -/

/-- What handling a datagram may do: write to its sender, and offer what the datagram brought if
it is accepted. -/
def Handles (relay : Relay) (clock : Clock) (client : Address) (datagram : Bytes) :
    Effect → Prop
  | .sent other .. => other = client
  | .offered routed _ => ∃ arrival,
      (relay.accept clock client datagram).1 = .ok arrival ∧ routed ∈ routedOf arrival

theorem does_handle (world : World) (relay : Relay) (clock : Clock) (client : Address)
    (datagram : Bytes) :
    Does (Handles relay clock client datagram)
      (relay.handle world.outlets clock client datagram) := by
  have hforward : ∀ arrival, (relay.accept clock client datagram).1 = .ok arrival →
      ∀ ready : Relay, Does (Handles relay clock client datagram)
        (ready.forward world.outlets arrival) := by
    intro arrival haccept ready
    refine (Does.publishAll fun routed hmem _ => ?_).bind fun _ => .pure _
    exact ⟨arrival, haccept, hmem⟩
  unfold handle
  rcases haccept : relay.accept clock client datagram with ⟨fault | arrival, after⟩
  · exact .pure _
  · have hbrought := hforward arrival (by rw [haccept])
    simp only
    rcases arrival.receipt.resend with _ | bytes
    · exact (hbrought after).bind fun _ => .pure _
    · refine (Does.write _ fun _ => rfl).bind fun result => ?_
      rcases result with ⟨fault | taken, ready⟩
      · exact .pure _
      · exact (hbrought ready).bind fun _ => .pure _

/-! ### Datagrams that are sent -/

/-- Only writing datagrams. -/
def Writes : Effect → Prop
  | .sent .. => True
  | .offered .. => False

theorem Rounds.does {world : World} {clock : Clock} {client : Address} {relay last : Relay}
    {journal journal' : Journal} {packets : List SubPacket} {sent : Nat}
    (h : Rounds world clock client relay journal packets sent last journal') :
    ∃ effects, journal' = journal ++ effects ∧ ∀ effect ∈ effects, Writes effect := by
  induction h with
  | emptied relay journal => exact ⟨[], (List.append_nil _).symm, nofun⟩
  | absent journal hsession => exact ⟨[], (List.append_nil _).symm, nofun⟩
  | unpacked journal => exact ⟨[], (List.append_nil _).symm, nofun⟩
  | stalled journal => exact ⟨[], (List.append_nil _).symm, nofun⟩
  | refused =>
    refine ⟨_, rfl, ?_⟩
    intro effect hmem
    rw [List.mem_singleton.mp hmem]
    trivial
  | taken hpackets hsession hassemble hconsumed hsend hrest ih =>
    obtain ⟨effects, hjournal, hall⟩ := ih
    refine ⟨_ :: effects, by rw [hjournal, List.append_assoc]; rfl, ?_⟩
    intro effect hmem
    rcases List.mem_cons.mp hmem with rfl | hmem
    · trivial
    · exact hall effect hmem

theorem does_flushAll (world : World) (relay : Relay) (clock : Clock)
    (pending : List (Address × List SubPacket)) :
    Does Writes (relay.flushAll world.outlets clock pending) := by
  induction pending generalizing relay with
  | nil => exact .pure _
  | cons entry rest ih =>
    obtain ⟨client, packets⟩ := entry
    unfold flushAll
    rcases relay.session? client with _ | session
    · exact ih _
    · have hclient : Does Writes (relay.flushClient world.outlets clock client packets) :=
        fun journal => (rounds_flushClient world clock client relay packets journal).does
      exact hclient.bind fun result => (ih result.2).bind fun _ => .pure _

theorem does_keepAlive (world : World) (relay : Relay) (clock : Clock) (client : Address) :
    Does (fun effect => Writes effect ∧ effect.client = client)
      (relay.keepAlive world.outlets clock client) := by
  unfold keepAlive
  rcases relay.session? client with _ | session
  · exact .pure _
  · simp only
    rcases relay.assemble clock session [] with ⟨fault | datagram, after⟩
    · exact .pure _
    · exact .write _ fun _ => ⟨trivial, rfl⟩

/-! ### Operations -/

/-- What a step does to the world. -/
def Step.effects (step : Step) : List Effect :=
  step.after.journal.drop step.before.journal.length

/-- What a step offers to the bus. -/
def Step.published (step : Step) : List Bus.Routed := step.effects.filterMap Effect.offered?

/-- What an operation may do: write datagrams, and offer what a datagram brought that it handles
and that is accepted. If it is addressed to a client it is all done for that client. -/
def Op.Allows (relay : Relay) (op : Op) (effect : Effect) : Prop :=
  (∀ client, op.client? = some client → effect.client = client) ∧
    ∀ routed, effect.offered? = some routed → ∃ clock client datagram arrival,
      op.datagram? = some (clock, client, datagram) ∧
      (relay.accept clock client datagram).1 = .ok arrival ∧ routed ∈ routedOf arrival

/-- What is done about a datagram is done for its sender. -/
theorem Handles.allows {relay : Relay} {op : Op} {clock : Clock} {client : Address}
    {datagram : Bytes} {effect : Effect} (h : Handles relay clock client datagram effect)
    (hdatagram : op.datagram? = some (clock, client, datagram))
    (hclient : op.client? = some client) : op.Allows relay effect := by
  cases effect with
  | sent other bytes result =>
    refine ⟨fun addressee haddressee => ?_, nofun⟩
    rw [← Option.some.inj (hclient.symm.trans haddressee)]
    exact h
  | offered routed result =>
    obtain ⟨arrival, haccept, hmem⟩ := h
    constructor
    · intro addressee haddressee
      obtain ⟨packet, -, rfl⟩ := List.mem_map.mp hmem
      rw [← Option.some.inj (hclient.symm.trans haddressee)]
      exact client_of_accept haccept
    · intro other hother
      obtain rfl : routed = other := Option.some.inj hother
      exact ⟨clock, client, datagram, arrival, hdatagram, haccept, hmem⟩

/-- Writing offers nothing. -/
theorem Writes.allows {relay : Relay} {op : Op} {effect : Effect} (h : Writes effect)
    (hclient : ∀ client, op.client? = some client → effect.client = client) :
    op.Allows relay effect := by
  cases effect with
  | sent other bytes result => exact ⟨hclient, nofun⟩
  | offered routed result => exact h.elim

/-- **Every operation does what it may and no more.** -/
theorem does_apply (world : World) (relay : Relay) (op : Op) :
    Does (op.Allows relay) (op.apply world relay) := by
  cases op with
  | handle clock client datagram =>
    have hhandle := does_handle world relay clock client datagram
    exact (hhandle.mono fun effect h => h.allows rfl rfl).bind fun _ => .pure _
  | receive clock client datagram =>
    have hcounted := does_handle world
      (relay.count (·.datagramReceived datagram.length.toUInt64)) clock client datagram
    have hhandle : Does (Op.Allows relay (.receive clock client datagram))
        ((relay.count (·.datagramReceived datagram.length.toUInt64)).handle world.outlets clock
          client datagram) := by
      refine hcounted.mono fun effect h => ?_
      have hsame : Handles relay clock client datagram effect := by
        cases effect with
        | sent other bytes result => exact h
        | offered routed result =>
          obtain ⟨arrival, haccept, hmem⟩ := h
          exact ⟨arrival, accept_of_count haccept, hmem⟩
      exact hsame.allows rfl rfl
    unfold Op.apply Relay.receive
    refine (hhandle.bind fun result => ?_).bind fun _ => .pure _
    rcases result with ⟨fault | taken, after⟩ <;> exact .pure _
  | enqueue client packets => exact .pure _
  | enqueueRouted routed => exact .pure _
  | takeReply reply => exact .pure _
  | flush clock =>
    have hflush := does_flushAll world { relay with queues := relay.queues.drain.2 } clock
      relay.queues.drain.1
    refine (hflush.mono fun effect h => h.allows fun addressee hnone => ?_).bind fun _ => .pure _
    cases hnone
  | keepAlive clock client =>
    refine ((does_keepAlive world relay clock client).mono fun effect h => ?_).bind
      fun _ => .pure _
    exact h.1.allows fun addressee haddressee => h.2.trans (Option.some.inj haddressee)
  | sweep clock busy => exact .pure _
  | disconnect client => exact .pure _
  | provide provider => exact .pure _

/-- **What a step adds to the journal** is what its operation may do. -/
theorem effects_step (world : World) (state : State) (op : Op) :
    (step world state op).after.journal = state.journal ++ (step world state op).effects ∧
      ∀ effect ∈ (step world state op).effects, op.Allows state.relay effect := by
  obtain ⟨effects, hjournal, hall⟩ := does_apply world state.relay op state.journal
  have heffects : (step world state op).effects = effects := by
    rw [Step.effects, step]
    simp only [hjournal, List.drop_left]
  rw [heffects]
  exact ⟨hjournal, hall⟩

/-- **What a step offers to the bus** is what a datagram brought that it handles and that is
accepted, under the address of its sender. -/
theorem published_step {world : World} {state : State} {op : Op} {routed : Bus.Routed}
    (h : routed ∈ (step world state op).published) : ∃ clock datagram arrival,
      op.datagram? = some (clock, routed.client, datagram) ∧
      (state.relay.accept clock routed.client datagram).1 = .ok arrival ∧
      routed ∈ routedOf arrival := by
  obtain ⟨effect, hmem, hoffered⟩ := List.mem_filterMap.mp h
  obtain ⟨clock, client, datagram, arrival, hdatagram, haccept, hrouted⟩ :=
    ((effects_step world state op).2 effect hmem).2 routed hoffered
  obtain rfl : routed.client = client := by
    obtain ⟨packet, -, rfl⟩ := List.mem_map.mp hrouted
    exact client_of_accept haccept
  exact ⟨clock, datagram, arrival, hdatagram, haccept, hrouted⟩

end Relay

end ZoneRelay
