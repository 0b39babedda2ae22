import ZoneRelay.Frame.SubPacket
import ZoneRelay.Net.Address

/-!
# Waiting sub-packets

For each client the sub-packets that wait to be sent, oldest first. A queue holds at most a
given number of them: adding more drops the oldest (`ZoneRelay.Queues.add`), putting some
back in front drops the youngest (`ZoneRelay.Queues.putBack`).
-/

namespace ZoneRelay

open ZoneRelay.Frame (SubPacket)

/-- The queues of some clients, each with at most one. -/
structure Queues where
  entries : List (Address × List SubPacket)

namespace Queues

/-- No queue. -/
def empty : Queues := ⟨[]⟩

variable (queues : Queues)

/-- The queue of a client, if it has one. -/
def get? (client : Address) : Option (List SubPacket) :=
  (queues.entries.find? fun entry => decide (entry.1 = client)).map (·.2)

/-- What waits for a client. -/
def waiting (client : Address) : List SubPacket := (queues.get? client).getD []

/-- Removes a client's queue. -/
def remove (client : Address) : Queues :=
  ⟨queues.entries.filter fun entry => decide (entry.1 ≠ client)⟩

/-- Removes the queues of some clients. -/
def removeAll (clients : List Address) : Queues :=
  clients.foldl (fun queues client => queues.remove client) queues

/-- Puts a client's queue in the place of what was there. -/
def put (client : Address) (packets : List SubPacket) : Queues :=
  if (queues.get? client).isSome then
    ⟨queues.entries.map fun entry => if entry.1 = client then (client, packets) else entry⟩
  else ⟨queues.entries ++ [(client, packets)]⟩

/-- Adds to the end of a client's queue; above the limit the oldest are dropped. -/
def add (limit : Nat) (client : Address) (packets : List SubPacket) : Queues :=
  let all := queues.waiting client ++ packets
  queues.put client (all.drop (all.length - limit))

/-- Puts sub-packets back in front of a client's queue; above the limit the youngest are
dropped. -/
def putBack (limit : Nat) (client : Address) (packets : List SubPacket) : Queues :=
  if packets.isEmpty then queues
  else queues.put client ((packets ++ queues.waiting client).take limit)

/-- Empties all queues: what waited for whom, and the empty queues. -/
def drain : List (Address × List SubPacket) × Queues :=
  (queues.entries.filter fun entry => !entry.2.isEmpty,
    ⟨queues.entries.map fun entry => (entry.1, [])⟩)

end Queues

end ZoneRelay
