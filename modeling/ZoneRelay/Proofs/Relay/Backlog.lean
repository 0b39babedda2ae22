import Mathlib.Data.List.DropRight
import ZoneRelay.Proofs.Relay.Queues
import ZoneRelay.Proofs.Relay.Run

/-!
# Batches in the backlog

Sub-packets for a client come in batches, of one or of many. Each batch is put behind what waits
already, less those that fit into no frame; and behind each batch the queue is cut to its limit,
from the front. **How the sub-packets are divided into batches makes no difference**: cutting twice
is cutting once, as long as it is the front that is cut (`ZoneRelay.Queues.rtake_append_rtake`). So
several batches leave what one batch of all of them would leave
(`ZoneRelay.Relay.backlog_of_batches`).

| | the client has a session | it has none |
|---|---|---|
| a batch is answered with | the number of those that fit into a frame | that there is no session |
| its queue afterwards | the last ones of the old and the fitting new, up to the limit | as before |
| anything else | as before | as before |

A queue that was too long before the first batch is cut as well. Without a batch nothing is cut, so
it takes at least one.
-/

namespace ZoneRelay

open ZoneRelay.Frame (SubPacket)

namespace Queues

/-- **Cutting off the front twice**, with something added in between, is cutting it off once. -/
theorem rtake_append_rtake {α : Type} (front back : List α) (limit : Nat) :
    (front.rtake limit ++ back).rtake limit = (front ++ back).rtake limit := by
  rw [List.rtake, List.rtake, List.rtake, List.drop_append, List.drop_append, List.drop_drop,
    List.length_append, List.length_append, List.length_drop]
  congr 2 <;> omega

variable (queues : Queues) (client : Address)

/-- **What was put last counts**: what is put for the same client before leaves no trace. -/
theorem put_put (packets more : List SubPacket) :
    (queues.put client packets).put client more = queues.put client more := by
  have hfound : ((queues.put client packets).get? client).isSome := by
    rw [get?_put, if_pos rfl]
    rfl
  rw [put, if_pos hfound, put, put]
  by_cases hsome : (queues.get? client).isSome
  · simp only [if_pos hsome, List.map_map]
    refine congrArg Queues.mk (List.map_congr_left fun entry _ => ?_)
    rw [Function.comp_apply]
    by_cases hentry : entry.1 = client
    · simp only [if_pos hentry, if_true]
    · simp only [if_neg hentry]
  · simp only [if_neg hsome, List.map_append, List.map_singleton, if_true]
    have hothers : ∀ entry ∈ queues.entries,
        (if entry.1 = client then (client, more) else entry) = entry := by
      intro entry hmem
      refine if_neg fun hentry => hsome (isSome_get?_iff.mpr ?_)
      exact hentry ▸ List.mem_map_of_mem hmem
    rw [List.map_congr_left hothers, List.map_id']

/-- **Two batches are one**, if both are put behind what waits for the same client. -/
theorem add_add (limit : Nat) (packets more : List SubPacket) :
    (queues.add limit client packets).add limit client more =
      queues.add limit client (packets ++ more) := by
  have hwaiting : (queues.add limit client packets).waiting client =
      (queues.waiting client ++ packets).rtake limit := by
    rw [waiting, get?_add, if_pos rfl]
    rfl
  have hput := put_put queues client ((queues.waiting client ++ packets).rtake limit)
  rw [add, hwaiting]
  refine (hput _).trans (congrArg (queues.put client) ?_)
  rw [← List.append_assoc]
  exact rtake_append_rtake _ _ limit

end Queues

namespace Relay

/-! ### One batch -/

/-- The batch that an operation puts into a client's queue, if it does. -/
def Op.batch? (client : Address) : Op → Option (List SubPacket)
  | enqueue addressee packets => if addressee = client then some packets else none
  | enqueueRouted routed => if routed.client = client then some [routed.toSubPacket] else none
  | _ => none

/-- The sub-packets that fit into a frame. -/
def fitting (packets : List SubPacket) : List SubPacket :=
  packets.filter fun packet => packet.frameLength ≤ Frame.maxFrameSize

/-- A relay with more in a client's queue. -/
def add (relay : Relay) (client : Address) (packets : List SubPacket) : Relay :=
  { relay with queues := relay.queues.add relay.config.outbound.backlogLimit client packets }

/-- **An operation that puts a batch into a queue** does this and nothing to the world, whether the
batch is a worker's packet or not. -/
theorem step_of_batch? (world : World) (state : State) {op : Op} {client : Address}
    {packets : List SubPacket} (h : op.batch? client = some packets) :
    step world state op = ⟨state, op, .enqueued (state.relay.enqueue client packets).1,
      ⟨(state.relay.enqueue client packets).2, state.journal⟩⟩ := by
  cases op with
  | enqueue addressee offered =>
    rw [Op.batch?, Option.ite_none_right_eq_some] at h
    obtain ⟨rfl, ⟨⟩⟩ := h
    rfl
  | enqueueRouted routed =>
    rw [Op.batch?, Option.ite_none_right_eq_some] at h
    obtain ⟨rfl, ⟨⟩⟩ := h
    rfl
  | handle | receive | takeReply | flush | keepAlive | sweep | disconnect | provide => cases h

theorem enqueue_eq_ok {relay : Relay} {client : Address}
    (hsession : (relay.session? client).isSome) (packets : List SubPacket) :
    relay.enqueue client packets =
      (.ok (fitting packets).length, relay.add client (fitting packets)) := by
  obtain ⟨session, hsession⟩ := Option.isSome_iff_exists.mp hsession
  rw [enqueue, hsession]
  rfl

theorem enqueue_eq_error {relay : Relay} {client : Address}
    (hsession : relay.session? client = none) (packets : List SubPacket) :
    relay.enqueue client packets = (.error (.sessionNotFound client), relay) := by
  rw [enqueue, hsession]

/-! ### Batch after batch -/

/-- What fits of several batches is what fits of each. -/
theorem fitting_flatten (batches : List (List SubPacket)) :
    fitting batches.flatten = (batches.map fitting).flatten :=
  List.filter_flatten

/-- **Batches for a client with a session** leave what one batch of them all leaves. -/
theorem run_batches (world : World) (state : State) {client : Address} {ops : List Op}
    {batches : List (List SubPacket)} (hops : ops.map (Op.batch? client) = batches.map some)
    (hsession : (state.relay.session? client).isSome) (hne : ops ≠ []) :
    run world state ops = ⟨state.relay.add client (fitting batches.flatten), state.journal⟩ ∧
      (trace world state ops).map (·.outcome) =
        batches.map fun packets => .enqueued (.ok (fitting packets).length) := by
  induction ops generalizing state batches with
  | nil => exact absurd rfl hne
  | cons op rest ih =>
    obtain ⟨packets, batches, rfl, hop, hrest⟩ := List.map_eq_cons_iff.mp hops.symm
    have hstep := step_of_batch? world state hop.symm
    rw [enqueue_eq_ok hsession] at hstep
    rw [run_cons, trace, hstep]
    -- behind the last batch there is nothing to put together: no batch does not even cut
    rcases rest with _ | ⟨next, rest⟩
    · obtain rfl : batches = [] := List.map_eq_nil_iff.mp hrest
      exact ⟨by simp [run], rfl⟩
    · obtain ⟨hrun, houtcomes⟩ :=
        ih ⟨state.relay.add client (fitting packets), state.journal⟩ hrest.symm hsession
          (List.cons_ne_nil _ _)
      refine ⟨?_, by rw [List.map_cons, houtcomes]; rfl⟩
      rw [hrun, add, add, fitting_flatten, fitting_flatten]
      simp only [Queues.add_add]
      rfl

/-- **Batches for a client without a session** are all refused, and change nothing. -/
theorem run_batches_refused (world : World) (state : State) {client : Address} {ops : List Op}
    {batches : List (List SubPacket)} (hops : ops.map (Op.batch? client) = batches.map some)
    (hsession : state.relay.session? client = none) :
    run world state ops = state ∧ (trace world state ops).map (·.outcome) =
      batches.map fun _ => .enqueued (.error (.sessionNotFound client)) := by
  induction ops generalizing batches with
  | nil =>
    obtain rfl : batches = [] := List.map_eq_nil_iff.mp hops.symm
    exact ⟨rfl, rfl⟩
  | cons op rest ih =>
    obtain ⟨packets, batches, rfl, hop, hrest⟩ := List.map_eq_cons_iff.mp hops.symm
    have hstep := step_of_batch? world state hop.symm
    rw [enqueue_eq_error hsession] at hstep
    obtain ⟨hrun, houtcomes⟩ := ih hrest.symm
    rw [run_cons, trace, hstep]
    exact ⟨hrun, by rw [List.map_cons, houtcomes]; rfl⟩

/-- **The split into batches does not matter.** Batches put into a client's queue one after another
leave the state that one batch of all their sub-packets leaves. In it the last of what waited and of
what fits wait for the client, up to the limit, and nothing else has changed; each batch is answered
with a number, and the numbers add up to that of the sub-packets that fit. If the client has no
session, each batch is answered with that, and the state stays what it is. -/
theorem backlog_of_batches (world : World) (state : State) {client : Address} {ops : List Op}
    {batches : List (List SubPacket)} (hops : ops.map (Op.batch? client) = batches.map some) :
    let after := run world state ops
    let outcomes := (trace world state ops).map (·.outcome)
    let fits := fitting batches.flatten
    ((state.relay.session? client).isSome → ops ≠ [] →
      after = run world state [.enqueue client batches.flatten] ∧
      after = ⟨{ state.relay with queues := after.relay.queues }, state.journal⟩ ∧
      (∀ other, after.relay.queues.get? other = if other = client
        then some ((state.relay.queues.waiting client ++ fits).rtake
          state.relay.config.outbound.backlogLimit)
        else state.relay.queues.get? other) ∧
      ∃ counts : List Nat, outcomes = counts.map (fun count => .enqueued (.ok count)) ∧
        counts.sum = fits.length) ∧
    (state.relay.session? client = none →
      after = state ∧
      outcomes = batches.map fun _ => .enqueued (.error (.sessionNotFound client))) := by
  intro after outcomes fits
  refine ⟨fun hsession hne => ?_, fun hsession => run_batches_refused world state hops hsession⟩
  obtain ⟨hrun, houtcomes⟩ := run_batches world state hops hsession hne
  have hsingle : [Op.enqueue client batches.flatten].map (Op.batch? client) =
      [batches.flatten].map some := by
    simp [Op.batch?]
  have hone := (run_batches world state hsingle hsession (List.cons_ne_nil _ _)).1
  have hqueues : after.relay.queues =
      state.relay.queues.add state.relay.config.outbound.backlogLimit client fits := by
    rw [show after = _ from hrun]
    rfl
  refine ⟨?_, ?_, fun other => ?_, batches.map fun packets => (fitting packets).length, ?_, ?_⟩
  · rw [show after = _ from hrun, hone, List.flatten_singleton]
  · rw [hqueues]
    exact hrun
  · rw [hqueues, Queues.get?_add]
    rfl
  · rw [show outcomes = _ from houtcomes, List.map_map]
    rfl
  · rw [show fits = _ from fitting_flatten batches, List.length_flatten, List.map_map]
    rfl

/-- The client of the relay below. -/
def crowdedClient : Address := .v4 127 0 0 1 5000

/-- A relay with room for two sub-packets in each queue, and with one waiting. -/
def crowdedRelay (book : Code.Book) : Relay :=
  let config : Config := { Config.standard with outbound := ⟨50, 10, 2⟩ }
  { Relay.start config book KeyStore.empty.provider with
    sessions := ⟨4096, [Session.start crowdedClient 7 (.ofText "flat") 0], 1, 0⟩
    queues := ⟨[(crowdedClient, [⟨1, 0, []⟩])]⟩ }

/-- Two batches, a worker's packet the second of them, leave the two youngest of four. One of the
sub-packets fits into no frame. -/
theorem backlog_of_batches_crowded : ∃ book, Code.Lengths.standard.book = .ok book ∧
    let world : World := ⟨fun _ _ _ => .ok (), fun _ _ => .ok ()⟩
    let state : State := ⟨crowdedRelay book, []⟩
    let large : SubPacket := ⟨2, 0, .replicate 505 0⟩
    let ops := [.enqueue crowdedClient [⟨2, 0, []⟩, large],
      .enqueueRouted ⟨crowdedClient, 7, 3, 0, 0, []⟩]
    ops.map (Op.batch? crowdedClient) = [[⟨2, 0, []⟩, large], [⟨3, 0, []⟩]].map some ∧
      run world state ops =
        run world state [.enqueue crowdedClient [⟨2, 0, []⟩, large, ⟨3, 0, []⟩]] ∧
      (run world state ops).relay.queues.get? crowdedClient =
        some [⟨2, 0, []⟩, ⟨3, 0, []⟩] := by
  obtain ⟨book, hbook, -⟩ := Code.Lengths.standard.exists_book
  have hops : [Op.enqueue crowdedClient [⟨2, 0, []⟩, ⟨2, 0, .replicate 505 0⟩],
      .enqueueRouted ⟨crowdedClient, 7, 3, 0, 0, []⟩].map (Op.batch? crowdedClient) =
      [[⟨2, 0, []⟩, ⟨2, 0, .replicate 505 0⟩], [⟨3, 0, []⟩]].map some := rfl
  obtain ⟨hone, -, hqueues, -⟩ := (backlog_of_batches ⟨fun _ _ _ => .ok (), fun _ _ => .ok ()⟩
    ⟨crowdedRelay book, []⟩ hops).1 rfl (List.cons_ne_nil _ _)
  have hfits : fitting [⟨2, 0, []⟩, ⟨2, 0, .replicate 505 0⟩, ⟨3, 0, []⟩] =
      [⟨2, 0, []⟩, ⟨3, 0, []⟩] := by
    decide +kernel
  refine ⟨book, hbook, hops, hone, (hqueues crowdedClient).trans ?_⟩
  rw [if_pos rfl, List.flatten_cons, List.flatten_singleton, List.cons_append,
    List.singleton_append, hfits]
  rfl

end Relay

end ZoneRelay
