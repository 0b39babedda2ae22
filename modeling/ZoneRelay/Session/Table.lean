import ZoneRelay.Session.Basic

/-!
# The session table

The live sessions, each under its client's address, **oldest first**. A table has room for
a given number of sessions, at least one. A session that is put where its client has one
already replaces it and counts as new; one that is put into a full table drives out the
oldest of the others. The table counts the sessions it was given and those it drove out.
-/

namespace ZoneRelay

/-- The live sessions, oldest first, and their numbers. -/
structure SessionTable where
  capacity : Nat
  sessions : List Session
  created : UInt64
  evicted : UInt64

namespace SessionTable

/-- An empty table with room for the given number of sessions, at least one. -/
def empty (capacity : Nat) : SessionTable := ⟨max 1 capacity, [], 0, 0⟩

/-- The session of a client. -/
def get? (table : SessionTable) (address : Address) : Option Session :=
  table.sessions.find? (·.address = address)

/-- The number of live sessions. -/
def size (table : SessionTable) : Nat := table.sessions.length

/-- The addresses of the live sessions, oldest first. -/
def addresses (table : SessionTable) : List Address := table.sessions.map (·.address)

/-- Changes a client's session in place; it keeps its age. -/
def modify (table : SessionTable) (address : Address) (f : Session → Session) : SessionTable :=
  { table with
    sessions := table.sessions.map fun session =>
      if session.address = address then f session else session }

/-- Removes a client's session. -/
def remove (table : SessionTable) (address : Address) : SessionTable :=
  { table with sessions := table.sessions.filter (·.address ≠ address) }

/-- Removes all sessions. -/
def clear (table : SessionTable) : SessionTable := { table with sessions := [] }

/-- The oldest session of another client. -/
def oldestOther? (table : SessionTable) (address : Address) : Option Address :=
  (table.sessions.find? (·.address ≠ address)).map (·.address)

/-- Drives out the oldest session of another client, if there is one. -/
def evictOldest (table : SessionTable) (address : Address) : Option Address × SessionTable :=
  match table.oldestOther? address with
  | none => (none, table)
  | some oldest => (some oldest, { table.remove oldest with evicted := table.evicted + 1 })

/-- Puts a session in the place of its client's, as the youngest, and makes room for it.
Gives the client that was driven out. -/
def insert (table : SessionTable) (session : Session) : Option Address × SessionTable :=
  let stored : SessionTable :=
    { table.remove session.address with
      sessions := (table.remove session.address).sessions ++ [session]
      created := table.created + 1 }
  if stored.capacity < stored.size then stored.evictOldest session.address else (none, stored)

/-- What looking a session up, or else creating it, comes to. -/
structure Admission where
  session : Session
  created : Bool
  evicted : Option Address

/-- The session of a client, or else the one that `create` makes. -/
def getOrInsert {ε : Type} (table : SessionTable) (address : Address)
    (create : Unit → Except ε Session) : Except ε (Admission × SessionTable) :=
  match table.get? address with
  | some session => .ok (⟨session, false, none⟩, table)
  | none =>
    match create () with
    | .error fault => .error fault
    | .ok session =>
      let (evicted, table) := table.insert session
      .ok (⟨session, true, evicted⟩, table)

/-- Whether a session has not been heard of for longer than the timeout. -/
def isIdle (now timeout : Instant) (session : Session) : Bool :=
  timeout < now - session.lastActive

/-- Removes the sessions that are idle and not `busy`. Gives their clients. -/
def evictIdle (table : SessionTable) (now timeout : Instant) (busy : Address → Bool) :
    List Address × SessionTable :=
  let (idle, live) :=
    table.sessions.partition fun session =>
      isIdle now timeout session && !busy session.address
  (idle.map (·.address),
    { table with sessions := live, evicted := table.evicted + idle.length.toUInt64 })

end SessionTable

end ZoneRelay
