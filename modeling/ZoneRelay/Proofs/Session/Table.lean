import Mathlib.Data.List.Nodup
import ZoneRelay.Session.Table

/-!
# The session table as a map

A table keeps its sessions in a list, oldest first, and each of them under its own address. Read
as a map from addresses to sessions (`ZoneRelay.SessionTable.get?`) every operation is one
equation; read as a list of addresses without repetition it is one on its length.

| operation | the map | the number of sessions |
|---|---|---|
| `modify` | `get?_modify` | `addresses_modify` |
| `remove` | `get?_remove` | `addresses_remove`, `length_filter_ne` |
| `insert` of a new address | `get?_insert` | `insert_cases` |
| `evictIdle` | `mem_addresses_evictIdle` | `size_evictIdle` |

Putting a session of a new address into a full table drives out the first of the list, which is
the oldest.
-/

namespace ZoneRelay

namespace SessionTable

variable {table : SessionTable} {address : Address}

/-! ### Looking up -/

theorem address_of_get? {session : Session} (h : table.get? address = some session) :
    session.address = address := by
  rw [get?] at h
  simpa using List.find?_some h

theorem isSome_get?_iff : (table.get? address).isSome ↔ address ∈ table.addresses := by
  rw [get?, List.find?_isSome, addresses, List.mem_map]
  simp only [decide_eq_true_eq]

theorem get?_eq_none_iff : table.get? address = none ↔ address ∉ table.addresses := by
  rw [← isSome_get?_iff, Option.not_isSome_iff_eq_none]

/-- **A session is the one that is found under its address.** -/
theorem get?_of_mem {session : Session} (hnodup : table.addresses.Nodup)
    (hmem : session ∈ table.sessions) : table.get? session.address = some session := by
  have hsome : (table.get? session.address).isSome :=
    isSome_get?_iff.mpr (List.mem_map.mpr ⟨session, hmem, rfl⟩)
  obtain ⟨found, hfound⟩ := Option.isSome_iff_exists.mp hsome
  have hsame := List.inj_on_of_nodup_map hnodup (List.mem_of_find?_eq_some hfound) hmem
    (address_of_get? hfound)
  rw [hfound, hsame]

theorem length_addresses (table : SessionTable) : table.addresses.length = table.size := by
  rw [addresses, List.length_map, size]

/-! ### Changing in place -/

/-- A session that is changed in place keeps its address, and so the others theirs. -/
theorem addresses_modify (table : SessionTable) {f : Session → Session}
    (hf : ∀ session, (f session).address = address) :
    (table.modify address f).addresses = table.addresses := by
  rw [addresses, addresses, modify, List.map_map]
  refine List.map_congr_left fun session _ => ?_
  rw [Function.comp_apply]
  split
  · rename_i hsame
    rw [hf, hsame]
  · rfl

/-- Only the session that is changed in place is another one. -/
theorem get?_modify (table : SessionTable) {f : Session → Session}
    (hf : ∀ session, (f session).address = address) (other : Address) :
    (table.modify address f).get? other =
      if other = address then (table.get? address).map f else table.get? other := by
  have hfind : ∀ session : Session,
      decide ((if session.address = address then f session else session).address = other) =
        decide (session.address = other) := by
    intro session
    split
    · rename_i hsame
      rw [hf, hsame]
    · rfl
  rw [get?, modify, List.find?_map]
  simp only [Function.comp_def, hfind]
  change (table.get? other).map _ = _
  rcases hsession : table.get? other with _ | session
  · by_cases hother : other = address
    · rw [if_pos hother, ← hother, hsession]
      rfl
    · rw [if_neg hother]
      rfl
  · rw [Option.map_some, address_of_get? hsession]
    by_cases hother : other = address
    · rw [if_pos hother, if_pos hother, ← hother, hsession, Option.map_some]
    · rw [if_neg hother, if_neg hother]

/-! ### Removing -/

theorem addresses_remove (table : SessionTable) (address : Address) :
    (table.remove address).addresses = table.addresses.filter (· ≠ address) := by
  rw [addresses, addresses, remove, List.filter_map]
  rfl

theorem get?_remove (table : SessionTable) (address other : Address) :
    (table.remove address).get? other = if other = address then none else table.get? other := by
  rw [get?, remove, List.find?_filter]
  by_cases hother : other = address
  · rw [if_pos hother, List.find?_eq_none]
    intro session _ hboth
    simp only [decide_eq_true_eq] at hboth
    exact hboth.1 (hboth.2.trans hother)
  · rw [if_neg hother, get?]
    refine congrArg (fun p => table.sessions.find? p) (funext fun session => ?_)
    by_cases hsession : session.address = other
    · simp [hsession, hother]
    · simp [hsession]

theorem remove_eq_self (h : table.get? address = none) : table.remove address = table := by
  have hall : ∀ session ∈ table.sessions, decide (session.address ≠ address) = true := by
    intro session hmem
    refine decide_eq_true fun hsame => get?_eq_none_iff.mp h ?_
    exact List.mem_map.mpr ⟨session, hmem, hsame⟩
  rw [remove, List.filter_eq_self.mpr hall]

/-- **Removing an address that is there** leaves one less. -/
theorem length_filter_ne {addresses : List Address} (hnodup : addresses.Nodup)
    (h : address ∈ addresses) :
    (addresses.filter (· ≠ address)).length + 1 = addresses.length := by
  have hpos : 0 < addresses.length := List.length_pos_of_mem h
  have herase : addresses.filter (· ≠ address) = addresses.erase address := by
    rw [hnodup.erase_eq_filter]
    refine List.filter_congr fun other _ => ?_
    by_cases hsame : other = address
    · simp [hsame]
    · simp [hsame, bne]
  rw [herase, List.length_erase_of_mem h]
  omega

theorem not_mem_addresses_remove (table : SessionTable) (address : Address) :
    address ∉ (table.remove address).addresses := by
  rw [addresses_remove]
  simp

/-- **Removing an address** leaves one less if it is there. -/
theorem size_remove (hnodup : table.addresses.Nodup) (address : Address) :
    (table.remove address).size + (table.get? address).isSome.toNat = table.size := by
  by_cases hmem : address ∈ table.addresses
  · have hone := length_filter_ne hnodup hmem
    rw [← addresses_remove, length_addresses, length_addresses] at hone
    rw [isSome_get?_iff.mpr hmem]
    exact hone
  · rw [get?_eq_none_iff.mpr hmem, remove_eq_self (get?_eq_none_iff.mpr hmem)]
    rfl

/-! ### Putting a new session -/

/-- **Putting the session of a new address**: it becomes the youngest; and if there is no room
for one more, the oldest of the others goes. -/
theorem insert_cases {session : Session} (hnew : table.get? session.address = none)
    (hcapacity : 0 < table.capacity) :
    (table.size + 1 ≤ table.capacity ∧ table.insert session =
      (none, { table with sessions := table.sessions ++ [session]
                          created := table.created + 1 })) ∨
    (table.capacity < table.size + 1 ∧ ∃ oldest rest, table.sessions = oldest :: rest ∧
      table.insert session =
        (some oldest.address,
          { table with sessions := (table.remove oldest.address).sessions ++ [session]
                       created := table.created + 1
                       evicted := table.evicted + 1 })) := by
  rw [insert, remove_eq_self hnew]
  simp only [size, List.length_append, List.length_singleton]
  by_cases hroom : table.sessions.length + 1 ≤ table.capacity
  · exact Or.inl ⟨hroom, if_neg (Nat.not_lt.mpr hroom)⟩
  · have hfull : table.capacity < table.sessions.length + 1 := Nat.lt_of_not_le hroom
    rw [if_pos hfull]
    refine Or.inr ⟨hfull, ?_⟩
    obtain ⟨oldest, rest, hsessions⟩ :=
      List.exists_cons_of_length_pos (l := table.sessions) (by omega)
    have hother : oldest.address ≠ session.address := by
      intro hsame
      refine get?_eq_none_iff.mp hnew ?_
      exact List.mem_map.mpr ⟨oldest, hsessions ▸ List.mem_cons_self, hsame⟩
    refine ⟨oldest, rest, hsessions, ?_⟩
    have holdest : (table.sessions ++ [session]).find? (·.address ≠ session.address) =
        some oldest := by
      rw [hsessions, List.cons_append, List.find?_cons_of_pos]
      exact decide_eq_true hother
    rw [evictOldest, oldestOther?]
    simp only [holdest, Option.map_some, remove, List.filter_append, List.filter_singleton,
      decide_eq_true hother.symm, cond_true]

/-- A session that is put behind the others is the one that is found under its address. -/
theorem get?_append {session : Session} (hmissing : session.address ∉ table.addresses)
    (other : Address) :
    ({ table with sessions := table.sessions ++ [session] } : SessionTable).get? other =
      if other = session.address then some session else table.get? other := by
  rw [get?, List.find?_append]
  change (table.get? other).or _ = _
  by_cases hother : other = session.address
  · rw [if_pos hother, hother, get?_eq_none_iff.mpr hmissing]
    simp
  · have hnone : [session].find? (fun found => decide (found.address = other)) = none := by
      simp [Ne.symm hother]
    rw [if_neg hother, hnone, Option.or_none]

/-- **What is found after putting the session of a new address**: that session under its
address, nothing under the address that was driven out, and otherwise what was there. -/
theorem get?_insert {session : Session} (hnew : table.get? session.address = none)
    (hcapacity : 0 < table.capacity) (other : Address) :
    (table.insert session).2.get? other =
      if other = session.address then some session
      else if (table.insert session).1 = some other then none else table.get? other := by
  have hmissing : session.address ∉ table.addresses := get?_eq_none_iff.mp hnew
  rcases insert_cases hnew hcapacity with ⟨-, hcase⟩ | ⟨-, oldest, rest, -, hcase⟩
  · rw [hcase, if_neg (nofun : ¬ (none : Option Address) = some other)]
    exact get?_append hmissing other
  · have hkept : session.address ∉ (table.remove oldest.address).addresses := by
      rw [addresses_remove]
      exact fun hmem => hmissing (List.mem_of_mem_filter hmem)
    rw [hcase]
    refine (get?_append hkept other).trans ?_
    rw [get?_remove]
    simp only [Option.some.injEq, eq_comm]

/-! ### Evicting idle sessions -/

section Idle

variable (table) (now timeout : Instant) (busy : Address → Bool)

/-- Every session is either among those that go or among those that stay. -/
theorem size_evictIdle : (table.evictIdle now timeout busy).2.size +
    (table.evictIdle now timeout busy).1.length = table.size := by
  simp only [evictIdle, List.partition_eq_filter_filter, size, List.length_map]
  rw [Nat.add_comm]
  exact (List.length_eq_length_filter_add _).symm

/-- Those that go are counted. -/
theorem counters_evictIdle :
    (table.evictIdle now timeout busy).2.capacity = table.capacity ∧
      (table.evictIdle now timeout busy).2.created = table.created ∧
      (table.evictIdle now timeout busy).2.evicted =
        table.evicted + UInt64.ofNat (table.evictIdle now timeout busy).1.length := by
  simp only [evictIdle, List.length_map, true_and, Nat.toUInt64]

theorem addresses_evictIdle_sublist :
    (table.evictIdle now timeout busy).2.addresses.Sublist table.addresses := by
  simp only [evictIdle, List.partition_eq_filter_filter, addresses]
  exact List.filter_sublist.map _

/-- Whoever is not told to go stays. -/
theorem mem_addresses_evictIdle {client : Address} (h : client ∈ table.addresses)
    (hstays : client ∉ (table.evictIdle now timeout busy).1) :
    client ∈ (table.evictIdle now timeout busy).2.addresses := by
  obtain ⟨session, hmem, rfl⟩ := List.mem_map.mp h
  simp only [evictIdle, List.partition_eq_filter_filter, addresses] at hstays ⊢
  refine List.mem_map.mpr ⟨session, List.mem_filter.mpr ⟨hmem, ?_⟩, rfl⟩
  rw [Function.comp_apply, Bool.not_eq_true']
  refine Bool.eq_false_iff.mpr fun hidle => hstays ?_
  exact List.mem_map.mpr ⟨session, List.mem_filter.mpr ⟨hmem, hidle⟩, rfl⟩

/-- Whoever stays keeps its session. -/
theorem get?_of_evictIdle (hnodup : table.addresses.Nodup) {client : Address} {session : Session}
    (h : (table.evictIdle now timeout busy).2.get? client = some session) :
    table.get? client = some session := by
  have hmem : session ∈ table.sessions := by
    have hlive := List.mem_of_find?_eq_some h
    simp only [evictIdle, List.partition_eq_filter_filter] at hlive
    exact List.mem_of_mem_filter hlive
  rw [← address_of_get? h]
  exact get?_of_mem hnodup hmem

end Idle

end SessionTable

end ZoneRelay
