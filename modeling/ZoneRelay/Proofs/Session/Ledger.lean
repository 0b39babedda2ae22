import Mathlib.Algebra.GroupWithZero.Nat
import Mathlib.Data.List.Induction
import ZoneRelay.Proofs.Session.Table

/-!
# The ledger of a session table

A table is written by five operations (`ZoneRelay.SessionTable.Op`), each at a point in time. A
session is put there, or looked up and put there if it is missing, or removed; all are removed;
or those that are idle are. **Whatever the operations, the table stays within its bounds and its
books are right** (`ZoneRelay.SessionTable.ledger_of_run`): no more sessions than there is room
for, one for each address, and every session that was ever created is either live, or counted as
evicted, or was removed, cleared or replaced.

Sessions do not carry the time of their creation. It is read off the run that led to a table
(`ZoneRelay.SessionTable.createdAt`): the time of the last operation that put a session of this
address. So a session that replaces another one is young, however old the other was.

What an operation can do to the sessions is one of two things.

| | the sessions | theorem |
|---|---|---|
| it puts a session | some of the old ones, none of its address, and behind them the new one | `exists_insert` |
| it puts none | some of the old ones | `step_cases` |

In both cases the sessions stay in the order in which they were created, so that the first one of
the table is the oldest.
-/

namespace ZoneRelay

namespace SessionTable

/-! ### Operations and their traces -/

/-- What can be done to a table. -/
inductive Op (ε : Type) where
  /-- Puts a session. -/
  | insert (session : Session)
  /-- Looks up the session of a client, or else puts the one that is created. -/
  | getOrInsert (address : Address) (create : Unit → Except ε Session)
  /-- Removes the session of a client. -/
  | remove (address : Address)
  /-- Removes all sessions. -/
  | clear
  /-- Removes the sessions that are idle and not busy. -/
  | evictIdle (now timeout : Instant) (busy : Address → Bool)

/-- A session is created for the client that it is asked for, if it is created at all. -/
def Op.Builds {ε : Type} : Op ε → Prop
  | getOrInsert address create => ∀ session, create () = .ok session → session.address = address
  | _ => True

/-- What comes out of an operation. -/
inductive Outcome (ε : Type) where
  /-- A session was put, and someone may have made room for it. -/
  | inserted (evicted : Option Address)
  /-- A session was found or created, or why it was not. -/
  | admitted (result : Except ε Admission)
  /-- These clients were idle. -/
  | swept (gone : List Address)
  /-- Nothing. -/
  | silent

variable {ε : Type}

/-- Who had to make room for a session. -/
def Outcome.evicted? : Outcome ε → Option Address
  | inserted evicted => evicted
  | admitted (.ok admission) => admission.evicted
  | _ => none

/-- Carries an operation out. A session that cannot be created leaves the table alone. -/
def Op.apply (table : SessionTable) : Op ε → Outcome ε × SessionTable
  | insert session =>
    let (evicted, after) := table.insert session
    (.inserted evicted, after)
  | getOrInsert address create =>
    match table.getOrInsert address create with
    | .ok (admission, after) => (.admitted (.ok admission), after)
    | .error fault => (.admitted (.error fault), table)
  | remove address => (.silent, table.remove address)
  | clear => (.silent, table.clear)
  | evictIdle now timeout busy =>
    let (gone, after) := table.evictIdle now timeout busy
    (.swept gone, after)

/-- An operation at a point in time. -/
structure Event (ε : Type) where
  time : Instant
  op : Op ε

/-- One operation of a run, with the tables before and after it. -/
structure Step (ε : Type) where
  before : SessionTable
  event : Event ε
  outcome : Outcome ε
  after : SessionTable

/-- An operation carried out. -/
def step (table : SessionTable) (event : Event ε) : Step ε :=
  ⟨table, event, (event.op.apply table).1, (event.op.apply table).2⟩

/-- The table at the end of a run. -/
def run (table : SessionTable) (events : List (Event ε)) : SessionTable :=
  events.foldl (fun table event => (table.step event).after) table

/-- The operations of a run, each carried out on what the one before left. -/
def trace : SessionTable → List (Event ε) → List (Step ε)
  | _, [] => []
  | table, event :: rest => table.step event :: trace (table.step event).after rest

theorem run_append_singleton (table : SessionTable) (events : List (Event ε)) (event : Event ε) :
    table.run (events ++ [event]) = ((table.run events).step event).after := by
  rw [run, List.foldl_append]
  rfl

theorem trace_append_singleton (table : SessionTable) (events : List (Event ε))
    (event : Event ε) :
    table.trace (events ++ [event]) = table.trace events ++ [(table.run events).step event] := by
  induction events generalizing table with
  | nil => rfl
  | cons first rest ih => rw [List.cons_append, trace, ih, trace, List.cons_append]; rfl

/-! ### What a step puts and what it takes -/

namespace Step

variable (step : Step ε)

/-- The session that a step puts. -/
def stored? : Option Session :=
  match step.event.op, step.outcome with
  | .insert session, _ => some session
  | .getOrInsert _ _, .admitted (.ok admission) =>
    if admission.created then some admission.session else none
  | _, _ => none

/-- Whether a step puts a session of a client. -/
def stores (address : Address) : Bool := step.stored?.any (·.address = address)

/-- How many sessions a step takes without counting them as evicted: those that are removed,
cleared or replaced. -/
def dropped : Nat :=
  match step.event.op with
  | .insert session => (step.before.get? session.address).isSome.toNat
  | .remove address => (step.before.get? address).isSome.toNat
  | .clear => step.before.size
  | _ => 0

end Step

/-- **When the session of a client was created**: the time of the last operation of a run that put
one. -/
def createdAt (table : SessionTable) (events : List (Event ε)) (address : Address) : Instant :=
  (((table.trace events).reverse.find? (·.stores address)).map (·.event.time)).getD 0

/-- The number of sessions that a run took without counting them as evicted. -/
def droppedBy (table : SessionTable) (events : List (Event ε)) : Nat :=
  ((table.trace events).map Step.dropped).sum

theorem createdAt_append_singleton (table : SessionTable) (events : List (Event ε))
    (event : Event ε) (address : Address) :
    table.createdAt (events ++ [event]) address =
      if ((table.run events).step event).stores address then event.time
      else table.createdAt events address := by
  rw [createdAt, trace_append_singleton, List.reverse_append, List.reverse_singleton,
    List.singleton_append, List.find?_cons]
  split
  · rename_i hstores
    rw [if_pos hstores]
    rfl
  · rename_i hstores
    rw [if_neg (by rw [hstores]; exact Bool.false_ne_true)]
    rfl

theorem droppedBy_append_singleton (table : SessionTable) (events : List (Event ε))
    (event : Event ε) :
    table.droppedBy (events ++ [event]) =
      table.droppedBy events + ((table.run events).step event).dropped := by
  rw [droppedBy, trace_append_singleton, List.map_append, List.sum_append]
  simp [droppedBy]

/-! ### What a step can do -/

variable {table : SessionTable}

/-- **Putting a session where there is one of its address** replaces it, and nobody has to make
room. -/
theorem insert_of_isSome {session : Session} (hnodup : table.addresses.Nodup)
    (hsize : table.size ≤ table.capacity) (h : (table.get? session.address).isSome) :
    table.insert session =
      (none, { table with
        sessions := (table.remove session.address).sessions ++ [session]
        created := table.created + 1 }) := by
  have hone := size_remove hnodup session.address
  rw [h] at hone
  have hroom : ¬ table.capacity < (table.remove session.address).size + 1 := by
    rw [Bool.toNat_true] at hone
    omega
  rw [insert]
  simp only [size, List.length_append, List.length_singleton] at hroom ⊢
  exact if_neg hroom

/-- **What putting a session does**: some of the old sessions stay, none of them of its address,
and it stands behind them. Whoever has to make room is counted. -/
theorem exists_insert (session : Session) (hnodup : table.addresses.Nodup)
    (hcapacity : 0 < table.capacity) (hsize : table.size ≤ table.capacity) :
    ∃ kept, kept.Sublist table.sessions ∧ session.address ∉ kept.map (·.address) ∧
      kept.length + 1 ≤ table.capacity ∧
      kept.length + (table.insert session).1.isSome.toNat +
        (table.get? session.address).isSome.toNat = table.size ∧
      (table.insert session).2 =
        { table with
          sessions := kept ++ [session]
          created := table.created + 1
          evicted := table.evicted + UInt64.ofNat (table.insert session).1.isSome.toNat } := by
  have hnobody : table.evicted + UInt64.ofNat 0 = table.evicted := UInt64.add_zero _
  rcases hfound : table.get? session.address with _ | old
  · have hmissing := get?_eq_none_iff.mp hfound
    rcases insert_cases hfound hcapacity with
      ⟨hroom, hinsert⟩ | ⟨-, oldest, rest, hsessions, hinsert⟩
    · rw [hinsert]
      refine ⟨table.sessions, List.Sublist.refl _, hmissing, hroom, rfl, ?_⟩
      simp only [Option.isSome_none, Bool.toNat_false, hnobody]
    · have hold : (table.get? oldest.address).isSome :=
        isSome_get?_iff.mpr (List.mem_map.mpr ⟨oldest, hsessions ▸ List.mem_cons_self, rfl⟩)
      have hone := size_remove hnodup oldest.address
      rw [hold, Bool.toNat_true] at hone
      have hkept : (table.remove oldest.address).sessions.Sublist table.sessions :=
        List.filter_sublist
      rw [hinsert]
      refine ⟨_, hkept, fun hmem => hmissing ((hkept.map _).subset hmem), ?_, hone, rfl⟩
      exact Nat.le_trans (Nat.le_of_eq hone) hsize
  · have hsome : (table.get? session.address).isSome := Option.isSome_iff_exists.mpr ⟨old, hfound⟩
    have hone := size_remove hnodup session.address
    rw [hsome, Bool.toNat_true] at hone
    rw [insert_of_isSome hnodup hsize hsome]
    refine ⟨(table.remove session.address).sessions, List.filter_sublist,
      table.not_mem_addresses_remove _, ?_, hone, ?_⟩
    · exact Nat.le_trans (Nat.le_of_eq hone) hsize
    · simp only [Option.isSome_none, Bool.toNat_false, hnobody]

/-- **What an operation can do**: put a session, of whose address another one may be dropped, or
put none. Then some of the old ones stay, and the others are counted as evicted or dropped. -/
theorem step_cases (hnodup : table.addresses.Nodup) {event : Event ε} (hbuilds : event.op.Builds) :
    (∃ session, (table.step event).stored? = some session ∧
      table.insert session = ((table.step event).outcome.evicted?, (table.step event).after) ∧
      (table.step event).dropped = (table.get? session.address).isSome.toNat) ∨
    ((table.step event).stored? = none ∧
      (table.step event).after.sessions.Sublist table.sessions ∧
      ∃ gone, (table.step event).after.size + gone + (table.step event).dropped = table.size ∧
        (table.step event).after =
          { table with
            sessions := (table.step event).after.sessions
            evicted := table.evicted + UInt64.ofNat gone }) := by
  have hnobody : table.evicted + UInt64.ofNat 0 = table.evicted := UInt64.add_zero _
  obtain ⟨time, op⟩ := event
  cases op with
  | insert session => exact Or.inl ⟨session, rfl, rfl, rfl⟩
  | getOrInsert address create =>
    rcases hfound : table.get? address with _ | old
    · rcases hcreate : create () with fault | session
      · have happly : (Op.getOrInsert address create).apply table =
            (.admitted (.error fault), table) := by
          simp only [Op.apply, SessionTable.getOrInsert, hfound, hcreate]
        simp only [step, happly]
        exact Or.inr ⟨rfl, List.Sublist.refl _, 0, rfl, by rw [hnobody]⟩
      · have happly : (Op.getOrInsert address create).apply table =
            (.admitted (.ok ⟨session, true, (table.insert session).1⟩),
              (table.insert session).2) := by
          simp only [Op.apply, SessionTable.getOrInsert, hfound, hcreate]
        have haddress : session.address = address := hbuilds session hcreate
        simp only [step, happly]
        refine Or.inl ⟨session, rfl, rfl, ?_⟩
        rw [haddress, hfound]
        rfl
    · have happly : (Op.getOrInsert address create).apply table =
          (.admitted (.ok ⟨old, false, none⟩), table) := by
        simp only [Op.apply, SessionTable.getOrInsert, hfound]
      simp only [step, happly]
      exact Or.inr ⟨rfl, List.Sublist.refl _, 0, rfl, by rw [hnobody]⟩
  | remove address =>
    refine Or.inr ⟨rfl, List.filter_sublist, 0, ?_, ?_⟩
    · exact size_remove hnodup address
    · rw [hnobody]
      rfl
  | clear =>
    refine Or.inr ⟨rfl, List.nil_sublist _, 0, Nat.zero_add _, ?_⟩
    rw [hnobody]
    rfl
  | evictIdle now timeout busy =>
    have hcounters := table.counters_evictIdle now timeout busy
    have hsublist : (table.evictIdle now timeout busy).2.sessions.Sublist table.sessions := by
      simp only [evictIdle, List.partition_eq_filter_filter]
      exact List.filter_sublist
    refine Or.inr ⟨rfl, hsublist, (table.evictIdle now timeout busy).1.length, ?_, ?_⟩
    · exact table.size_evictIdle now timeout busy
    · rw [← hcounters.2.2]
      rfl

/-! ### What a run keeps -/

/-- **The books are right** after a run: there are no more sessions than there is room for; they
stand in the order in which they were created, none of them later than the last operation; and
the counters account for every one of them. No more were created than there were operations. -/
structure Sound (first : SessionTable) (events : List (Event ε)) : Prop where
  capacity_pos : 0 < first.capacity
  capacity_eq : (first.run events).capacity = first.capacity
  size_le : (first.run events).size ≤ first.capacity
  aged : (first.run events).addresses.Pairwise fun a b =>
    first.createdAt events a < first.createdAt events b
  past : ∀ address ∈ (first.run events).addresses, ∃ event ∈ events,
    first.createdAt events address = event.time
  balance : ∃ created evicted : Nat, (first.run events).created = UInt64.ofNat created ∧
    (first.run events).evicted = UInt64.ofNat evicted ∧
    created = (first.run events).size + evicted + first.droppedBy events ∧
    created ≤ events.length

namespace Sound

variable {first : SessionTable} {events : List (Event ε)} {event : Event ε}

/-- Sessions that were created at different times are of different clients. -/
theorem nodup (h : Sound first events) : (first.run events).addresses.Nodup :=
  h.aged.imp fun {a b} hlt => by
    rintro rfl
    exact Nat.lt_irrefl _ hlt

/-- **What stays keeps its order and its age** when an operation puts no session of its
address. -/
theorem aged_of_sublist (h : Sound first events) (event : Event ε) {kept : List Address}
    (hsublist : kept.Sublist (first.run events).addresses)
    (hstores : ∀ address ∈ kept, ((first.run events).step event).stores address = false) :
    (kept.Pairwise fun a b => first.createdAt (events ++ [event]) a <
        first.createdAt (events ++ [event]) b) ∧
      ∀ address ∈ kept, ∃ old ∈ events,
        first.createdAt (events ++ [event]) address = old.time := by
  have hsame : ∀ address ∈ kept, first.createdAt (events ++ [event]) address =
      first.createdAt events address := by
    intro address hmem
    rw [createdAt_append_singleton, hstores address hmem]
    rfl
  constructor
  · refine (h.aged.sublist hsublist).imp_of_mem fun {a b} ha hb hlt => ?_
    rwa [hsame a ha, hsame b hb]
  · intro address hmem
    rw [hsame address hmem]
    exact h.past address (hsublist.subset hmem)

/-- **A session that is put** is the youngest. -/
theorem put (h : Sound first events) (hlater : ∀ old ∈ events, old.time < event.time)
    {session : Session} (hstored : ((first.run events).step event).stored? = some session)
    (hinsert : (first.run events).insert session =
      (((first.run events).step event).outcome.evicted?, ((first.run events).step event).after))
    (hdropped : ((first.run events).step event).dropped =
      ((first.run events).get? session.address).isSome.toNat) :
    Sound first (events ++ [event]) := by
  obtain ⟨kept, hsublist, hmissing, hroom, hsize, hafter⟩ :=
    exists_insert session h.nodup (h.capacity_eq ▸ h.capacity_pos)
      (h.capacity_eq ▸ h.size_le)
  rw [hinsert] at hafter hsize
  change _ + ((first.run events).step event).outcome.evicted?.isSome.toNat + _ = _ at hsize
  change ((first.run events).step event).after = _ at hafter
  rw [← run_append_singleton] at hafter
  have hnew : first.createdAt (events ++ [event]) session.address = event.time := by
    rw [createdAt_append_singleton, Step.stores, hstored]
    exact if_pos (decide_eq_true rfl)
  obtain ⟨horder, hpast⟩ := h.aged_of_sublist event (hsublist.map _) <| by
    intro address hmem
    rw [Step.stores, hstored]
    exact decide_eq_false fun hsame => hmissing (hsame ▸ hmem)
  have hlength : (first.run (events ++ [event])).size = kept.length + 1 := by
    rw [hafter, size, List.length_append]
    rfl
  have haddresses : (first.run (events ++ [event])).addresses =
      kept.map (·.address) ++ [session.address] := by
    rw [hafter, addresses, List.map_append]
    rfl
  obtain ⟨created, evicted, hcreated, hevicted, hbalance, hle⟩ := h.balance
  refine ⟨h.capacity_pos, ?_, ?_, ?_, ?_, created + 1,
    evicted + ((first.run events).step event).outcome.evicted?.isSome.toNat, ?_, ?_, ?_, ?_⟩
  · rw [hafter]
    exact h.capacity_eq
  · rw [hlength, ← h.capacity_eq]
    exact hroom
  · rw [haddresses, List.pairwise_append]
    refine ⟨horder, List.pairwise_singleton _ _, ?_⟩
    intro a ha b hb
    obtain ⟨old, hold, htime⟩ := hpast a ha
    rw [List.mem_singleton.mp hb, htime, hnew]
    exact hlater old hold
  · intro address hmem
    rw [haddresses, List.mem_append] at hmem
    rcases hmem with hmem | hmem
    · obtain ⟨old, hold, htime⟩ := hpast address hmem
      exact ⟨old, List.mem_append_left _ hold, htime⟩
    · rw [List.mem_singleton.mp hmem]
      exact ⟨event, List.mem_append_right _ (List.mem_singleton_self event), hnew⟩
  · rw [hafter, UInt64.ofNat_add, ← hcreated]
    rfl
  · rw [hafter, UInt64.ofNat_add, ← hevicted]
  · rw [hlength, droppedBy_append_singleton, hdropped]
    omega
  · rw [List.length_append, List.length_singleton]
    omega

/-- **Where no session is put**, those that go are counted. -/
theorem take (h : Sound first events)
    (hstored : ((first.run events).step event).stored? = none)
    (hsublist : ((first.run events).step event).after.sessions.Sublist
      (first.run events).sessions) {gone : Nat}
    (hgone : ((first.run events).step event).after.size + gone +
      ((first.run events).step event).dropped = (first.run events).size)
    (hafter : ((first.run events).step event).after =
      { first.run events with
        sessions := ((first.run events).step event).after.sessions
        evicted := (first.run events).evicted + UInt64.ofNat gone }) :
    Sound first (events ++ [event]) := by
  obtain ⟨horder, hpast⟩ := h.aged_of_sublist event (hsublist.map _) <| by
    intro address _
    rw [Step.stores, hstored]
    rfl
  obtain ⟨created, evicted, hcreated, hevicted, hbalance, hle⟩ := h.balance
  rw [← run_append_singleton] at hgone hafter horder hpast
  have hsize := h.size_le
  refine ⟨h.capacity_pos, ?_, by omega, horder, ?_, created, evicted + gone, ?_, ?_, ?_, ?_⟩
  · rw [hafter]
    exact h.capacity_eq
  · intro address hmem
    obtain ⟨old, hold, htime⟩ := hpast address hmem
    exact ⟨old, List.mem_append_left _ hold, htime⟩
  · rw [hafter]
    exact hcreated
  · rw [hafter, UInt64.ofNat_add, ← hevicted]
  · rw [droppedBy_append_singleton]
    omega
  · rw [List.length_append]
    omega

/-- **An operation keeps the books right.** -/
theorem step (h : Sound first events) (hlater : ∀ old ∈ events, old.time < event.time)
    (hbuilds : event.op.Builds) : Sound first (events ++ [event]) := by
  rcases step_cases h.nodup hbuilds with
    ⟨session, hstored, hinsert, hdropped⟩ | ⟨hstored, hsublist, gone, hgone, hafter⟩
  · exact h.put hlater hstored hinsert hdropped
  · exact h.take hstored hsublist hgone hafter

end Sound

/-- **Every run keeps the books right.** -/
theorem sound_run (capacity : Nat) {events : List (Event ε)}
    (htimes : events.Pairwise fun a b => a.time < b.time)
    (hbuilds : ∀ event ∈ events, event.op.Builds) : Sound (empty capacity) events := by
  induction events using List.reverseRecOn with
  | nil =>
    have hpos : 0 < (empty capacity).capacity := Nat.lt_of_lt_of_le Nat.zero_lt_one
      (Nat.le_max_left 1 capacity)
    exact ⟨hpos, rfl, Nat.zero_le _, List.Pairwise.nil, nofun, 0, 0, rfl, rfl, rfl,
      Nat.le_refl _⟩
  | append_singleton events event ih =>
    obtain ⟨hbefore, -, hlater⟩ := List.pairwise_append.mp htimes
    refine (ih hbefore fun old hold => hbuilds old (List.mem_append_left _ hold)).step ?_ ?_
    · exact fun old hold => hlater old hold event (List.mem_singleton_self event)
    · exact hbuilds event (List.mem_append_right _ (List.mem_singleton_self event))

/-! ### The ledger -/

/-- **How the session of a new address is put**: where the table is full someone goes, the
earliest created of those that were there, and is counted; the new session is found, and so is
everyone else. -/
structure Joins (before after : SessionTable) (createdAt : Address → Instant) (session : Session)
    (evicted : Option Address) : Prop where
  evicts_iff : evicted.isSome ↔ before.size = before.capacity
  earliest : ∀ oldest, evicted = some oldest →
    oldest ∈ before.addresses ∧ oldest ≠ session.address ∧
      ∀ other ∈ before.addresses, other ≠ oldest → createdAt oldest < createdAt other
  finds : ∀ other, after.get? other =
    if other = session.address then some session
    else if evicted = some other then none else before.get? other
  counts : after.evicted = before.evicted + UInt64.ofNat evicted.isSome.toNat

/-- **How a session is put where there is one of its address**: that one goes and nobody else, and
it is not counted as evicted. -/
structure Replaces (before after : SessionTable) (session : Session) (evicted : Option Address) :
    Prop where
  nobody : evicted = none
  finds : ∀ other, after.get? other =
    if other = session.address then some session else before.get? other
  size_eq : after.size = before.size
  counts : after.evicted = before.evicted

namespace Sound

variable {first : SessionTable} {events : List (Event ε)} {session : Session}

/-- **Putting the session of a new address** into a table whose books are right. The first session
of a full table is the one that goes, and the table is in the order of creation. -/
theorem joins (h : Sound first events)
    (hnew : (first.run events).get? session.address = none) :
    Joins (first.run events) ((first.run events).insert session).2 (first.createdAt events) session
      ((first.run events).insert session).1 := by
  have hcapacity : 0 < (first.run events).capacity := h.capacity_eq ▸ h.capacity_pos
  have hsize : (first.run events).size ≤ (first.run events).capacity := h.capacity_eq ▸ h.size_le
  have hfinds := get?_insert hnew hcapacity
  rcases insert_cases hnew hcapacity with
    ⟨hroom, hinsert⟩ | ⟨hfull, oldest, rest, hsessions, hinsert⟩
  · rw [hinsert] at hfinds ⊢
    refine ⟨⟨nofun, fun hfull => ?_⟩, nofun, hfinds, (UInt64.add_zero _).symm⟩
    omega
  · rw [hinsert] at hfinds ⊢
    have haddresses : (first.run events).addresses =
        oldest.address :: rest.map (·.address) := by
      rw [addresses, hsessions, List.map_cons]
    refine ⟨⟨fun _ => by omega, fun _ => rfl⟩, ?_, hfinds, rfl⟩
    rintro _ ⟨⟩
    have hmem : oldest.address ∈ (first.run events).addresses :=
      haddresses ▸ List.mem_cons_self
    refine ⟨hmem, ?_, ?_⟩
    · intro hsame
      exact get?_eq_none_iff.mp hnew (hsame ▸ hmem)
    · intro other hother hne
      have haged := h.aged
      rw [haddresses] at haged hother
      exact List.rel_of_pairwise_cons haged (List.mem_of_ne_of_mem hne hother)

/-- **Putting a session where there is one of its address**, in a table whose books are right. -/
theorem replaces (h : Sound first events)
    (hold : ((first.run events).get? session.address).isSome) :
    Replaces (first.run events) ((first.run events).insert session).2 session
      ((first.run events).insert session).1 := by
  have hone := size_remove h.nodup session.address
  rw [hold, Bool.toNat_true] at hone
  rw [insert_of_isSome h.nodup (h.capacity_eq ▸ h.size_le) hold]
  refine ⟨rfl, fun other => ?_, ?_, rfl⟩
  · have hmissing := (first.run events).not_mem_addresses_remove session.address
    refine (get?_append hmissing other).trans ?_
    rw [get?_remove]
    split <;> rfl
  · rw [size, List.length_append]
    exact hone

end Sound

/-- **The bound and the ledger of a table**, after any run of operations at growing times, whose
last operation is `event`.

* There is room for `max 1 maxSessions` sessions, and no more than one has the same address.
* If the last operation put the session of a new address, somebody had to make room just where the
  table was full, and it was the earliest created of the others.
* If it put a session where there was one of its address, that one was replaced.
* Looking up a client that is there gives its session, whatever would have been created, and a
  session that cannot be created changes nothing.
* Every session that was created is live, or counted as evicted, or was removed, cleared or
  replaced. The counters are numbers modulo `2 ^ 64`; where the run has fewer operations than
  that they are exact. -/
theorem ledger_of_run (maxSessions : Nat) (earlier : List (Event ε)) (event : Event ε)
    (htimes : (earlier ++ [event]).Pairwise fun a b => a.time < b.time)
    (hbuilds : ∀ any ∈ earlier ++ [event], any.op.Builds) :
    let before := (empty maxSessions).run earlier
    let outcome := (before.step event).outcome
    let stored? := (before.step event).stored?
    let after := (empty maxSessions).run (earlier ++ [event])
    let dropped := (empty maxSessions).droppedBy (earlier ++ [event])
    (after.size ≤ max 1 maxSessions ∧ before.capacity = max 1 maxSessions ∧
      after.addresses.Nodup) ∧
    (∀ session, stored? = some session → before.get? session.address = none →
      Joins before after ((empty maxSessions).createdAt earlier) session outcome.evicted?) ∧
    (∀ session, stored? = some session → (before.get? session.address).isSome →
      Replaces before after session outcome.evicted?) ∧
    (∀ address create, event.op = .getOrInsert address create →
      (∀ session, before.get? address = some session →
        outcome = .admitted (.ok ⟨session, false, none⟩) ∧ after = before ∧
        ∀ other, (Op.getOrInsert address other).apply before =
          (event.op.apply before)) ∧
      (∀ fault, before.get? address = none → create () = .error fault →
        outcome = .admitted (.error fault) ∧ after = before)) ∧
    after.created = UInt64.ofNat after.size + after.evicted + UInt64.ofNat dropped ∧
    ((earlier ++ [event]).length < 2 ^ 64 →
      after.created.toNat = after.size + after.evicted.toNat + dropped) := by
  intro before outcome stored? after dropped
  have hafter : after = (before.step event).after := run_append_singleton _ _ _
  obtain ⟨hbefore, -, -⟩ := List.pairwise_append.mp htimes
  have hsound := sound_run maxSessions hbefore fun old hold =>
    hbuilds old (List.mem_append_left _ hold)
  have hsound' := sound_run maxSessions htimes hbuilds
  have hstored : ∀ session, stored? = some session →
      before.insert session = (outcome.evicted?, after) := by
    intro session hsession
    have hop := hbuilds event (List.mem_append_right _ (List.mem_singleton_self event))
    rcases step_cases hsound.nodup hop with ⟨session', hstored, hinsert, -⟩ | ⟨hnone, -⟩
    · rw [hafter, ← hinsert, Option.some.inj (hsession.symm.trans hstored)]
    · exact absurd (hsession.symm.trans hnone) (Option.some_ne_none session)
  refine ⟨⟨hsound'.size_le, hsound.capacity_eq, hsound'.nodup⟩, ?_, ?_, ?_, ?_⟩
  · intro session hsession hnew
    have hjoins := hsound.joins hnew
    rwa [hstored session hsession] at hjoins
  · intro session hsession hold
    have hreplaces := hsound.replaces hold
    rwa [hstored session hsession] at hreplaces
  · intro address create hop
    refine ⟨fun session hfound => ?_, fun fault hmissing hcreate => ?_⟩
    · have happly : ∀ other : Unit → Except ε Session,
          (Op.getOrInsert address other).apply before =
            (.admitted (.ok ⟨session, false, none⟩), before) := by
        intro other
        simp only [Op.apply, SessionTable.getOrInsert, hfound]
      rw [hafter]
      simp only [outcome, SessionTable.step, hop, happly, implies_true, and_self]
    · have happly : event.op.apply before = (.admitted (.error fault), before) := by
        simp only [hop, Op.apply, SessionTable.getOrInsert, hmissing, hcreate]
      rw [hafter]
      simp only [outcome, SessionTable.step, happly, and_self]
  · obtain ⟨created, evicted, hcreated, hevicted, hbalance, hle⟩ := hsound'.balance
    refine ⟨?_, fun hfew => ?_⟩
    · rw [hcreated, hevicted, hbalance, UInt64.ofNat_add, UInt64.ofNat_add]
    · have hsmall : created < UInt64.size := Nat.lt_of_le_of_lt hle hfew
      rw [hcreated, hevicted, UInt64.toNat_ofNat_of_lt' hsmall,
        UInt64.toNat_ofNat_of_lt' (by omega), hbalance]

/-- The session of the client at a port of this machine. -/
def localSession (port : UInt16) : Session :=
  .start (.v4 127 0 0 1 port) port.toUInt32 (.ofText "local") 0

/-- Two clients, of which the first logs in again. -/
def returning : List (Event String) :=
  [⟨1, .insert (localSession 1)⟩, ⟨2, .insert (localSession 2)⟩, ⟨3, .insert (localSession 1)⟩]

/-- A third client. -/
def newcomer : Event String :=
  ⟨4, .getOrInsert (.v4 127 0 0 1 3) fun _ => .ok (localSession 3)⟩

/-- Where there is room for two, the second client has to make room for the third: the first one
came earlier, but it came again. Of the four sessions that were created two are live, one was
evicted and one replaced. -/
theorem ledger_returning :
    let before := (empty 2).run returning
    let after := (empty 2).run (returning ++ [newcomer])
    (before.step newcomer).outcome.evicted? = some (.v4 127 0 0 1 2) ∧
      Joins before after ((empty 2).createdAt returning) (localSession 3)
        (some (.v4 127 0 0 1 2)) ∧
      after.created.toNat = after.size + after.evicted.toNat + 1 ∧ after.size = 2 := by
  have htimes : (returning ++ [newcomer]).Pairwise fun a b => a.time < b.time := by decide
  have hbuilds : ∀ event ∈ returning ++ [newcomer], event.op.Builds := by
    simp only [returning, newcomer, List.cons_append, List.nil_append, List.forall_mem_cons]
    refine ⟨trivial, trivial, trivial, ?_, nofun⟩
    rintro session ⟨⟩
    rfl
  obtain ⟨-, hjoins, -, -, -, hexact⟩ := ledger_of_run 2 returning newcomer htimes hbuilds
  exact ⟨rfl, hjoins (localSession 3) rfl rfl, hexact (by decide), rfl⟩

end SessionTable

end ZoneRelay
