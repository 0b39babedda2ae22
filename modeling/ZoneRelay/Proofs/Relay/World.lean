import ZoneRelay.Relay.Forward

/-!
# The relay in its world

The relay writes datagrams and offers packets to the bus, and either may fail. Here the ways out
lead into a **world** (`ZoneRelay.World`), which answers as it likes, given all that was done
to it before; and a **journal** keeps what was done and what came of it, oldest first. A
statement about every world is a statement about every pattern of success and failure; and what a
journal gains, the world has answered (`ZoneRelay.World.Answers`).

What the relay does to the world comes from two actions.

| action | what the journal gains | theorem |
|---|---|---|
| writing | one datagram | `ZoneRelay.Relay.perform_write` |
| publishing packets | each of them once, in order | `ZoneRelay.Relay.perform_publishAll` |
-/

namespace ZoneRelay

/-- What the relay did to the world, with what came of it. -/
inductive Effect where
  /-- A datagram was written to a client. -/
  | sent (client : Address) (bytes : Bytes) (result : Except String Unit)
  /-- A packet was offered to the bus. -/
  | offered (routed : Bus.Routed) (result : Except Fault Unit)

namespace Effect

/-- The packet that was offered to the bus, if one was. -/
def offered? : Effect → Option Bus.Routed
  | sent .. => none
  | offered routed _ => some routed

/-- Whether a datagram was written to a client, successfully or not. -/
def isTo (client : Address) : Effect → Bool
  | sent other .. => other = client
  | offered .. => false

/-- Whether a datagram was written successfully. -/
def delivers : Effect → Bool
  | sent _ _ result => result.isOk
  | offered .. => false

end Effect

/-- What is offered with one result each is what was offered. -/
theorem filterMap_offered {packets : List Bus.Routed} {results : List (Except Fault Unit)}
    (h : results.length = packets.length) :
    (List.zipWith Effect.offered packets results).filterMap Effect.offered? = packets := by
  induction packets generalizing results with
  | nil => rfl
  | cons routed rest ih =>
    obtain ⟨result, results, rfl⟩ := List.exists_cons_of_length_eq_add_one h
    rw [List.zipWith_cons_cons, List.filterMap_cons_some (by rfl), ih (Nat.succ.inj h)]

/-- All that was done to the world, oldest first. -/
abbrev Journal := List Effect

/-- How the world answers, given all that was done to it before. -/
structure World where
  send : Journal → Address → Bytes → Except String Unit
  publish : Journal → Bus.Routed → Except Fault Unit

/-- An effect is what the world answers, given all that was done to it before. -/
def Effect.AnsweredBy (world : World) (journal : Journal) : Effect → Prop
  | sent client bytes result => result = world.send journal client bytes
  | offered routed result => result = world.publish journal routed

namespace World

/-- **The world has answered these**, one after another, behind all that was done before. -/
def Answers (world : World) (journal : Journal) (effects : List Effect) : Prop :=
  ∀ (i : Nat) (effect : Effect), effects[i]? = some effect →
    effect.AnsweredBy world (journal ++ effects.take i)

namespace Answers

variable {world : World} {journal : Journal}

theorem nil : world.Answers journal [] :=
  nofun

theorem singleton {effect : Effect} (h : effect.AnsweredBy world journal) :
    world.Answers journal [effect] := by
  rintro (_ | i) found hfound
  · cases hfound
    rw [List.take_zero, List.append_nil]
    exact h
  · cases hfound

/-- The world answers what comes later when it has answered what came before. -/
theorem append {first second : List Effect} (hfirst : world.Answers journal first)
    (hsecond : world.Answers (journal ++ first) second) :
    world.Answers journal (first ++ second) := by
  intro i effect hi
  rcases Nat.lt_or_ge i first.length with hlt | hge
  · rw [List.getElem?_append_left hlt] at hi
    rw [List.take_append_of_le_length (Nat.le_of_lt hlt)]
    exact hfirst i effect hi
  · rw [List.getElem?_append_right hge] at hi
    rw [List.take_append, List.take_of_length_le hge, ← List.append_assoc]
    exact hsecond _ effect hi

end Answers

/-- The ways out into a world. -/
def outlets (world : World) : Outlets (StateM Journal) where
  send client bytes := modifyGet fun journal =>
    let result := world.send journal client bytes
    (result, journal ++ [.sent client bytes result])
  publish routed := modifyGet fun journal =>
    let result := world.publish journal routed
    (result, journal ++ [.offered routed result])

/-- Carries an action out behind all that was done before. -/
def perform {α : Type} (action : StateM Journal α) (journal : Journal) : α × Journal :=
  (action.run journal).run

@[simp] theorem perform_pure {α : Type} (a : α) (journal : Journal) :
    perform (pure a) journal = (a, journal) :=
  rfl

@[simp] theorem perform_bind {α β : Type} (action : StateM Journal α) (next : α → StateM Journal β)
    (journal : Journal) : perform (action >>= next) journal =
      perform (next (perform action journal).1) (perform action journal).2 :=
  rfl

@[simp] theorem perform_send (world : World) (client : Address) (bytes : Bytes)
    (journal : Journal) : perform (world.outlets.send client bytes) journal =
      (world.send journal client bytes,
        journal ++ [.sent client bytes (world.send journal client bytes)]) :=
  rfl

@[simp] theorem perform_publish (world : World) (routed : Bus.Routed) (journal : Journal) :
    perform (world.outlets.publish routed) journal =
      (world.publish journal routed,
        journal ++ [.offered routed (world.publish journal routed)]) :=
  rfl

end World

namespace Relay

open World

variable (world : World)

/-- A datagram as it is counted when it was written. -/
def noteSent (relay : Relay) (bytes : Bytes) (result : Except String Unit) :
    Except Fault Unit × Relay :=
  match result with
  | .ok _ => (.ok (), relay.count (·.datagramSent bytes.length.toUInt64))
  | .error reason => (.error (.io reason), relay)

/-- **Writing** does one thing to the world, and counts the datagram if it was taken. -/
theorem perform_write (relay : Relay) (client : Address) (bytes : Bytes) (journal : Journal) :
    perform (relay.write world.outlets client bytes) journal =
      (relay.noteSent bytes (world.send journal client bytes),
        journal ++ [.sent client bytes (world.send journal client bytes)]) := by
  rw [write, perform_bind, perform_send]
  rcases world.send journal client bytes with reason | taken
  · rfl
  · rfl

/-- **Publishing** offers every packet to the bus once, in order, and counts those that the bus
took and those that it did not. -/
theorem perform_publishAll (packets : List Bus.Routed) (journal : Journal) :
    ∃ results : List (Except Fault Unit), results.length = packets.length ∧
      perform (publishAll world.outlets packets) journal =
        ((results.countP (·.isOk), results.countP fun result => !result.isOk),
          journal ++ List.zipWith .offered packets results) := by
  induction packets generalizing journal with
  | nil => exact ⟨[], rfl, by simp [publishAll]⟩
  | cons routed rest ih =>
    obtain ⟨results, hlength, hrest⟩ :=
      ih (journal ++ [.offered routed (world.publish journal routed)])
    refine ⟨world.publish journal routed :: results, by simp [hlength], ?_⟩
    rw [publishAll, perform_bind, perform_publish, perform_bind, hrest]
    rcases world.publish journal routed with fault | taken <;>
      simp [Except.isOk, Except.toBool]

/-- Publishing what a datagram brought. -/
theorem perform_forward (relay : Relay) (arrival : Arrival) (journal : Journal) :
    ∃ results : List (Except Fault Unit), results.length = (routedOf arrival).length ∧
      perform (relay.forward world.outlets arrival) journal =
        ((results.countP (·.isOk), relay.noteForward arrival (results.countP (·.isOk))
            (results.countP fun result => !result.isOk)),
          journal ++ List.zipWith .offered (routedOf arrival) results) := by
  obtain ⟨results, hlength, hpublish⟩ := perform_publishAll world (routedOf arrival) journal
  refine ⟨results, hlength, ?_⟩
  rw [forward, perform_bind, hpublish]
  rfl

end Relay

end ZoneRelay
