import Mathlib.Data.List.Nodup
import ZoneRelay.Relay.Queues

/-!
# The queues as a map

The queues are a list of entries; read as a map from clients to what waits for them
(`ZoneRelay.Queues.get?`) every operation is one equation. No operation gives a client a second
entry (`ZoneRelay.Queues.Distinct`), so emptying the queues finds exactly what the map shows
(`ZoneRelay.Queues.mem_drain`).

Between emptying a queue and putting back what could not be sent, more may be added to it. What is
put back comes first all the same, and if there is no room for everything it is the newer ones that
go (`ZoneRelay.Queues.waiting_putBack_newer`).

Queues are **in order** (`ZoneRelay.Queues.Orderly`) when they belong to live clients, keep to
the limit, and hold only what fits into a frame. Every operation keeps them so, whatever it drops.
-/

namespace ZoneRelay

open ZoneRelay.Frame (SubPacket)

namespace Queues

variable {queues : Queues} {client : Address}

/-- The clients that have a queue, which may be empty. -/
def clients (queues : Queues) : List Address := queues.entries.map (·.1)

/-- No client has two queues. -/
def Distinct (queues : Queues) : Prop := queues.clients.Nodup

/-! ### Looking up -/

theorem isSome_get?_iff : (queues.get? client).isSome ↔ client ∈ queues.clients := by
  rw [get?, Option.isSome_map, List.find?_isSome, clients, List.mem_map]
  simp only [decide_eq_true_eq]

theorem mem_of_get? {packets : List SubPacket} (h : queues.get? client = some packets) :
    (client, packets) ∈ queues.entries := by
  obtain ⟨⟨other, found⟩, hfind, rfl⟩ := Option.map_eq_some_iff.mp h
  have hclient : other = client := by simpa using List.find?_some hfind
  rw [← hclient]
  exact List.mem_of_find?_eq_some hfind

/-- A client's only entry is the one that is found. -/
theorem get?_of_mem (h : queues.Distinct) {packets : List SubPacket}
    (hmem : (client, packets) ∈ queues.entries) : queues.get? client = some packets := by
  have hsome : (queues.get? client).isSome :=
    isSome_get?_iff.mpr (List.mem_map.mpr ⟨_, hmem, rfl⟩)
  obtain ⟨found, hfound⟩ := Option.isSome_iff_exists.mp hsome
  have hsame := List.inj_on_of_nodup_map h (mem_of_get? hfound) hmem rfl
  rw [hfound, (Prod.mk.inj hsame).2]

/-! ### Removing -/

theorem get?_remove (queues : Queues) (client other : Address) :
    (queues.remove client).get? other = if other = client then none else queues.get? other := by
  rw [get?, remove, List.find?_filter]
  by_cases hother : other = client
  · rw [if_pos hother, Option.map_eq_none_iff, List.find?_eq_none]
    intro entry _ hboth
    simp only [decide_eq_true_eq] at hboth
    exact hboth.1 (hboth.2.trans hother)
  · rw [if_neg hother, get?]
    refine congrArg (fun p => (queues.entries.find? p).map (·.2)) (funext fun entry => ?_)
    by_cases hentry : entry.1 = other
    · simp [hentry, hother]
    · simp [hentry]

/-- What is found after removing a queue was there before. -/
theorem get?_of_remove {other : Address} {packets : List SubPacket}
    (h : (queues.remove client).get? other = some packets) :
    queues.get? other = some packets := by
  rw [get?_remove] at h
  by_cases hother : other = client
  · rw [if_pos hother] at h
    cases h
  · rwa [if_neg hother] at h

theorem Distinct.remove (h : queues.Distinct) (client : Address) :
    (queues.remove client).Distinct :=
  h.sublist (List.filter_sublist.map _)

theorem get?_removeAll (queues : Queues) (gone : List Address) (other : Address) :
    (queues.removeAll gone).get? other = if other ∈ gone then none else queues.get? other := by
  induction gone generalizing queues with
  | nil => simp [removeAll]
  | cons client rest ih =>
    have hrest : queues.removeAll (client :: rest) = (queues.remove client).removeAll rest := rfl
    rw [hrest, ih, get?_remove]
    by_cases hclient : other = client
    · simp [hclient]
    · simp [hclient]

theorem Distinct.removeAll (h : queues.Distinct) (gone : List Address) :
    (queues.removeAll gone).Distinct := by
  induction gone generalizing queues with
  | nil => exact h
  | cons client rest ih => exact ih (h.remove client)

/-! ### Putting -/

theorem get?_put (queues : Queues) (client other : Address) (packets : List SubPacket) :
    (queues.put client packets).get? other =
      if other = client then some packets else queues.get? other := by
  rw [put]
  by_cases hsome : (queues.get? client).isSome
  · rw [if_pos hsome, get?, List.find?_map]
    have hfind : ((fun entry => decide (entry.1 = other)) ∘
        fun entry : Address × List SubPacket =>
          if entry.1 = client then (client, packets) else entry) =
        fun entry => decide (entry.1 = other) := by
      funext entry
      by_cases hentry : entry.1 = client
      · simp [hentry]
      · simp [hentry]
    rw [hfind, Option.map_map]
    by_cases hother : other = client
    · obtain ⟨found, hfound⟩ := Option.isSome_iff_exists.mp hsome
      obtain ⟨entry, hentry, -⟩ := Option.map_eq_some_iff.mp hfound
      have hclient : entry.1 = client := by simpa using List.find?_some hentry
      rw [if_pos hother, hother, hentry, Option.map_some, Function.comp_apply, if_pos hclient]
    · rw [if_neg hother, get?]
      refine Option.map_congr fun entry hentry => ?_
      have hclient : entry.1 = other := by simpa using List.find?_some hentry
      rw [Function.comp_apply, if_neg (hclient ▸ hother)]
  · rw [if_neg hsome, get?, List.find?_append, Option.map_or]
    have hnone : queues.get? client = none := Option.not_isSome_iff_eq_none.mp hsome
    change (queues.get? other).or _ = _
    by_cases hother : other = client
    · rw [if_pos hother, hother, hnone]
      simp
    · have hmissing : [(client, packets)].find? (fun entry => decide (entry.1 = other)) = none := by
        simp [Ne.symm hother]
      rw [if_neg hother, hmissing]
      simp

theorem Distinct.put (h : queues.Distinct) (client : Address) (packets : List SubPacket) :
    (queues.put client packets).Distinct := by
  rw [Queues.put]
  by_cases hsome : (queues.get? client).isSome
  · have hclients : (queues.entries.map fun entry =>
        if entry.1 = client then (client, packets) else entry).map (·.1) = queues.clients := by
      rw [clients, List.map_map]
      refine List.map_congr_left fun entry _ => ?_
      by_cases hentry : entry.1 = client
      · simp [hentry]
      · simp [hentry]
    rw [if_pos hsome, Distinct, clients, hclients]
    exact h
  · have hnew : client ∉ queues.clients := fun hmem => hsome (isSome_get?_iff.mpr hmem)
    rw [if_neg hsome, Distinct, clients, List.map_append]
    exact List.nodup_append.mpr ⟨h, List.nodup_singleton _, by
      intro other hother new hnew' hsame
      rw [List.map_singleton, List.mem_singleton] at hnew'
      rw [hsame, hnew'] at hother
      exact hnew hother⟩

/-! ### Adding behind and in front -/

theorem get?_add (queues : Queues) (limit : Nat) (client other : Address)
    (packets : List SubPacket) : (queues.add limit client packets).get? other =
      if other = client then
        some ((queues.waiting client ++ packets).drop
          ((queues.waiting client ++ packets).length - limit))
      else queues.get? other :=
  get?_put queues client other _

/-- **Putting nothing back** changes nothing, not even that there is no queue. -/
theorem putBack_nil (queues : Queues) (limit : Nat) (client : Address) :
    queues.putBack limit client [] = queues :=
  rfl

theorem get?_putBack (queues : Queues) (limit : Nat) (client other : Address)
    {packets : List SubPacket} (h : packets ≠ []) :
    (queues.putBack limit client packets).get? other =
      if other = client then some ((packets ++ queues.waiting client).take limit)
      else queues.get? other := by
  have hnot : packets.isEmpty = false := by simpa using h
  rw [putBack, hnot]
  exact get?_put queues client other _

/-- **What is put back stands in front** of what waits, and above the limit the youngest of all are
dropped. -/
theorem waiting_putBack (queues : Queues) {limit : Nat} {client : Address}
    (hlimit : (queues.waiting client).length ≤ limit) (packets : List SubPacket)
    (other : Address) :
    (queues.putBack limit client packets).waiting other =
      if other = client then (packets ++ queues.waiting client).take limit
      else queues.waiting other := by
  by_cases hnil : packets = []
  · rw [hnil, putBack_nil, List.nil_append, List.take_of_length_le hlimit]
    by_cases hother : other = client
    · rw [if_pos hother, hother]
    · rw [if_neg hother]
  · rw [waiting, get?_putBack queues limit client other hnil]
    by_cases hother : other = client
    · rw [if_pos hother, if_pos hother]
      rfl
    · rw [if_neg hother, if_neg hother]
      rfl

/-! ### Emptying -/

/-- **What is found when the queues are emptied** is what they held. -/
theorem mem_drain (h : queues.Distinct) {packets : List SubPacket} :
    (client, packets) ∈ queues.drain.1 ↔ queues.get? client = some packets ∧ packets ≠ [] := by
  rw [drain, List.mem_filter]
  refine and_congr ⟨get?_of_mem h, mem_of_get?⟩ ?_
  simp

theorem nodup_drain (h : queues.Distinct) : (queues.drain.1.map (·.1)).Nodup :=
  h.sublist (List.filter_sublist.map _)

theorem get?_drain (queues : Queues) (client : Address) :
    queues.drain.2.get? client = (queues.get? client).map fun _ => [] := by
  rw [drain, get?, List.find?_map, get?, Option.map_map, Option.map_map]
  rfl

theorem waiting_drain (queues : Queues) (client : Address) :
    queues.drain.2.waiting client = [] := by
  rw [waiting, get?_drain]
  rcases queues.get? client with _ | packets <;> rfl

/-- **What waits for a client is found**, unless nothing does. -/
theorem mem_drain_waiting (h : queues.Distinct) (hwaiting : queues.waiting client ≠ []) :
    (client, queues.waiting client) ∈ queues.drain.1 := by
  rcases hqueue : queues.get? client with _ | packets
  · rw [waiting, hqueue] at hwaiting
    exact absurd rfl hwaiting
  · rw [waiting, hqueue] at hwaiting ⊢
    exact (mem_drain h).mpr ⟨hqueue, hwaiting⟩

/-- **Putting back ahead of what came in between.** All that waits is taken out of the queues,
more is added for a client while it is being sent, and what could not be sent, the end of what was
taken, is put back. Then all of that waits again and in front; behind it stand the oldest of the
newer ones, as many as there is room for, of the newest that the limit let in. Nobody else has
anything waiting. -/
theorem waiting_putBack_newer (queues : Queues) {limit : Nat} {client : Address}
    (hlimit : (queues.waiting client).length ≤ limit) {sent unsent : List SubPacket}
    (htaken : queues.waiting client = sent ++ unsent) (newer : List SubPacket) (other : Address) :
    ((queues.drain.2.add limit client newer).putBack limit client unsent).waiting other =
      if other = client then
        unsent ++ (newer.drop (newer.length - limit)).take (limit - unsent.length)
      else [] := by
  have hadded : ∀ other, (queues.drain.2.add limit client newer).waiting other =
      if other = client then newer.drop (newer.length - limit) else [] := by
    intro other
    rw [waiting, get?_add, waiting_drain, List.nil_append]
    by_cases hother : other = client
    · rw [if_pos hother, if_pos hother]
      rfl
    · rw [if_neg hother, if_neg hother]
      exact queues.waiting_drain other
  have hroom : unsent.length ≤ limit := by
    rw [htaken, List.length_append] at hlimit
    omega
  have hfits : ((queues.drain.2.add limit client newer).waiting client).length ≤ limit := by
    rw [hadded, if_pos rfl, List.length_drop]
    omega
  rw [waiting_putBack _ hfits, hadded, hadded, if_pos rfl, List.take_append,
    List.take_of_length_le hroom]
  by_cases hother : other = client
  · rw [if_pos hother, if_pos hother]
  · rw [if_neg hother, if_neg hother, if_neg hother]

theorem Distinct.drain (h : queues.Distinct) : queues.drain.2.Distinct := by
  rw [Distinct, clients, Queues.drain, List.map_map]
  exact h

/-! ### Queues in order -/

/-- A queue keeps to a limit, and each of its sub-packets fits into a frame. -/
structure Fits (limit : Nat) (packets : List SubPacket) : Prop where
  length_le : packets.length ≤ limit
  short : ∀ packet ∈ packets, packet.frameLength ≤ Frame.maxFrameSize

theorem Fits.nil (limit : Nat) : Fits limit [] := ⟨Nat.zero_le _, nofun⟩

/-- **Queues in order**: one for each client, only for live clients, and each of them fits. -/
structure Orderly (limit : Nat) (live : List Address) (queues : Queues) : Prop where
  distinct : queues.Distinct
  live : ∀ client packets, queues.get? client = some packets → client ∈ live
  fits : ∀ client packets, queues.get? client = some packets → Fits limit packets

namespace Orderly

variable {limit : Nat} {live : List Address}

theorem empty (limit : Nat) (live : List Address) : Queues.empty.Orderly limit live :=
  ⟨List.nodup_nil, nofun, nofun⟩

theorem fits_waiting (h : queues.Orderly limit live) (client : Address) :
    Fits limit (queues.waiting client) := by
  rw [waiting]
  rcases hqueue : queues.get? client with _ | packets
  · exact Fits.nil limit
  · exact h.fits client packets hqueue

/-- Queues may go, and clients whose queue has gone. -/
theorem shrink (h : queues.Orderly limit live) {after : Queues} {live' : List Address}
    (hdistinct : after.Distinct)
    (hqueues : ∀ client packets, after.get? client = some packets →
      queues.get? client = some packets ∧ (client ∈ live → client ∈ live')) :
    after.Orderly limit live' where
  distinct := hdistinct
  live client packets hqueue :=
    (hqueues client packets hqueue).2 (h.live client packets (hqueues client packets hqueue).1)
  fits client packets hqueue := h.fits client packets (hqueues client packets hqueue).1

theorem remove (h : queues.Orderly limit live) (client : Address) {live' : List Address}
    (hlive : ∀ other ∈ live, other ≠ client → other ∈ live') :
    (queues.remove client).Orderly limit live' := by
  refine h.shrink (h.distinct.remove client) fun other packets hqueue => ?_
  rw [get?_remove] at hqueue
  by_cases hother : other = client
  · rw [if_pos hother] at hqueue
    cases hqueue
  · rw [if_neg hother] at hqueue
    exact ⟨hqueue, fun hmem => hlive other hmem hother⟩

theorem removeAll (h : queues.Orderly limit live) (gone : List Address) {live' : List Address}
    (hlive : ∀ other ∈ live, other ∉ gone → other ∈ live') :
    (queues.removeAll gone).Orderly limit live' := by
  refine h.shrink (h.distinct.removeAll gone) fun other packets hqueue => ?_
  rw [get?_removeAll] at hqueue
  by_cases hother : other ∈ gone
  · rw [if_pos hother] at hqueue
    cases hqueue
  · rw [if_neg hother] at hqueue
    exact ⟨hqueue, fun hmem => hlive other hmem hother⟩

/-- A queue that fits may be put for a live client. -/
theorem put (h : queues.Orderly limit live) {packets : List SubPacket} (hlive : client ∈ live)
    (hfits : Fits limit packets) : (queues.put client packets).Orderly limit live := by
  have hcases : ∀ other found, (queues.put client packets).get? other = some found →
      other = client ∧ found = packets ∨ queues.get? other = some found := by
    intro other found hqueue
    rw [get?_put] at hqueue
    by_cases hother : other = client
    · rw [if_pos hother] at hqueue
      exact Or.inl ⟨hother, (Option.some.inj hqueue).symm⟩
    · rw [if_neg hother] at hqueue
      exact Or.inr hqueue
  refine ⟨h.distinct.put client packets, fun other found hqueue => ?_,
    fun other found hqueue => ?_⟩
  · rcases hcases other found hqueue with ⟨rfl, -⟩ | hold
    · exact hlive
    · exact h.live other found hold
  · rcases hcases other found hqueue with ⟨-, rfl⟩ | hold
    · exact hfits
    · exact h.fits other found hold

/-- **Adding at the end** keeps to the limit by dropping the oldest. -/
theorem add (h : queues.Orderly limit live) {packets : List SubPacket} (hlive : client ∈ live)
    (hshort : ∀ packet ∈ packets, packet.frameLength ≤ Frame.maxFrameSize) :
    (queues.add limit client packets).Orderly limit live := by
  refine h.put hlive ⟨?_, fun packet hmem => ?_⟩
  · rw [List.length_drop]
    omega
  · rcases List.mem_append.mp (List.mem_of_mem_drop hmem) with hold | hnew
    · exact (h.fits_waiting client).short packet hold
    · exact hshort packet hnew

/-- **Putting back in front** keeps to the limit by dropping the youngest. -/
theorem putBack (h : queues.Orderly limit live) {packets : List SubPacket}
    (hlive : client ∈ live)
    (hshort : ∀ packet ∈ packets, packet.frameLength ≤ Frame.maxFrameSize) :
    (queues.putBack limit client packets).Orderly limit live := by
  rw [Queues.putBack]
  split
  · exact h
  · refine h.put hlive ⟨List.length_take_le _ _, fun packet hmem => ?_⟩
    rcases List.mem_append.mp (List.mem_of_mem_take hmem) with hnew | hold
    · exact hshort packet hnew
    · exact (h.fits_waiting client).short packet hold

theorem drain (h : queues.Orderly limit live) : queues.drain.2.Orderly limit live := by
  have hcases : ∀ other found, queues.drain.2.get? other = some found →
      found = [] ∧ ∃ packets, queues.get? other = some packets := by
    intro other found hqueue
    rw [get?_drain] at hqueue
    obtain ⟨packets, hold, rfl⟩ := Option.map_eq_some_iff.mp hqueue
    exact ⟨rfl, packets, hold⟩
  refine ⟨h.distinct.drain, fun other found hqueue => ?_, fun other found hqueue => ?_⟩
  · obtain ⟨-, packets, hold⟩ := hcases other found hqueue
    exact h.live other packets hold
  · obtain ⟨rfl, -⟩ := hcases other found hqueue
    exact Fits.nil limit

end Orderly

end Queues

end ZoneRelay
