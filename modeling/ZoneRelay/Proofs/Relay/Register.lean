import Mathlib.Algebra.Group.Nat.Defs
import ZoneRelay.Proofs.Relay.Flushing
import ZoneRelay.Proofs.Relay.Handling
import ZoneRelay.Relay.Upkeep

/-!
# The register of a relay

Of a relay's sessions only their addresses matter to its bookkeeping. Together with the settings
and the counters of sessions they are its **register** (`ZoneRelay.Relay.Register`). Most of what
a relay does leaves the register and the queues as they are (`ZoneRelay.Relay.Kept`): sessions
change in place, other things are counted. Otherwise one of four things happens to the register,
and each keeps it in balance (`ZoneRelay.Relay.Balanced`).

| | theorem |
|---|---|
| a client joins | `ZoneRelay.Relay.Balanced.join` |
| a client joins a full table | `ZoneRelay.Relay.Balanced.replace` |
| clients go and are counted | `ZoneRelay.Relay.Balanced.sweep` |
| a client leaves | `ZoneRelay.Relay.Balanced.leave` |

The counters are 64-bit words and wrap. So the balance is kept with the true numbers beside them,
of which no more were created than there were operations.
-/

namespace ZoneRelay

open ZoneRelay.Frame (SubPacket)

namespace Relay

open World

/-! ### The register -/

/-- The settings of a relay, whose sessions are live, and both counts of sessions. -/
structure Register where
  config : Config
  book : Code.Book
  clients : List Address
  capacity : Nat
  created : UInt64
  evicted : UInt64
  countedCreated : UInt64
  countedEvicted : UInt64

/-- The register of a relay. -/
def register (relay : Relay) : Register where
  config := relay.config
  book := relay.book
  clients := relay.sessions.addresses
  capacity := relay.sessions.capacity
  created := relay.sessions.created
  evicted := relay.sessions.evicted
  countedCreated := relay.metrics.sessionsCreated
  countedEvicted := relay.metrics.sessionsEvicted

/-- **A register in balance** after some operations, of which some disconnected a client: no
client is there twice, no more than there is room for, both counts are the same, and they are
those of numbers that account for the clients. -/
structure Balanced (config : Config) (book : Code.Book) (operations gone : Nat)
    (register : Register) : Prop where
  config_eq : register.config = config
  book_eq : register.book = book
  capacity_eq : register.capacity = max 1 config.server.maxSessions
  nodup : register.clients.Nodup
  length_le : register.clients.length ≤ register.capacity
  created_eq : register.countedCreated = register.created
  evicted_eq : register.countedEvicted = register.evicted
  balance : ∃ created evicted : Nat, register.created = UInt64.ofNat created ∧
    register.evicted = UInt64.ofNat evicted ∧
    register.clients.length + evicted + gone = created ∧ created ≤ operations

namespace Balanced

variable {config : Config} {book : Code.Book} {operations gone : Nat} {register : Register}
  {client : Address}

/-- **What is live** is what was created, without what was evicted and what has left. -/
theorem live_eq (h : Balanced config book operations gone register) :
    UInt64.ofNat register.clients.length =
      register.created - register.evicted - UInt64.ofNat gone := by
  obtain ⟨created, evicted, hcreated, hevicted, hbalance, -⟩ := h.balance
  rw [hcreated, hevicted, ← hbalance, UInt64.ofNat_add, UInt64.ofNat_add]
  grind

/-- The same in numbers, as long as no counter can have wrapped. -/
theorem live_eq_of_lt (h : Balanced config book operations gone register)
    (hoperations : operations < 2 ^ 64) :
    register.clients.length + register.evicted.toNat + gone = register.created.toNat := by
  obtain ⟨created, evicted, hcreated, hevicted, hbalance, hle⟩ := h.balance
  have hwrap : ∀ n ≤ operations, (UInt64.ofNat n).toNat = n := fun n hn =>
    UInt64.toNat_ofNat_of_lt' (Nat.lt_of_le_of_lt hn hoperations)
  rw [hcreated, hevicted, hwrap created hle, hwrap evicted (by omega)]
  exact hbalance

/-- Another operation may have done nothing. -/
theorem succ (h : Balanced config book operations gone register) :
    Balanced config book (operations + 1) gone register := by
  obtain ⟨created, evicted, hcreated, hevicted, hbalance, hle⟩ := h.balance
  exact { h with balance := ⟨created, evicted, hcreated, hevicted, hbalance, by omega⟩ }

/-- **A client joins**, and there is room. -/
theorem join (h : Balanced config book operations gone register)
    (hnew : client ∉ register.clients)
    (hroom : register.clients.length + 1 ≤ register.capacity) :
    Balanced config book (operations + 1) gone
      { register with
        clients := register.clients ++ [client]
        created := register.created + 1
        countedCreated := register.countedCreated + 1 } := by
  obtain ⟨created, evicted, hcreated, hevicted, hbalance, hle⟩ := h.balance
  refine { h with nodup := ?_, length_le := ?_, created_eq := ?_, balance := ?_ }
  · exact List.nodup_append.mpr ⟨h.nodup, List.nodup_singleton _, by
      rintro other hother _ hclient rfl
      rw [List.mem_singleton] at hclient
      exact hnew (hclient ▸ hother)⟩
  · simpa using hroom
  · simp only [h.created_eq]
  · refine ⟨created + 1, evicted, ?_, hevicted, ?_, Nat.succ_le_succ hle⟩
    · rw [hcreated, UInt64.ofNat_add]
      rfl
    · rw [List.length_append, List.length_singleton]
      omega

/-- **Clients go** that were there, and are counted as evicted. -/
theorem sweep (h : Balanced config book operations gone register) {staying : List Address}
    {idle : Nat} (hnodup : staying.Nodup) (hlength : staying.length + idle = register.clients.length) :
    Balanced config book operations gone
      { register with
        clients := staying
        evicted := register.evicted + UInt64.ofNat idle
        countedEvicted := register.countedEvicted + UInt64.ofNat idle } := by
  obtain ⟨created, evicted, hcreated, hevicted, hbalance, hle⟩ := h.balance
  refine { h with nodup := hnodup, length_le := ?_, evicted_eq := ?_, balance := ?_ }
  · have hle := h.length_le
    simp only
    omega
  · simp only [h.evicted_eq]
  · refine ⟨created, evicted + idle, hcreated, ?_, ?_, hle⟩
    · rw [hevicted, UInt64.ofNat_add]
    · simp only
      omega

/-- **A client joins a full table**, from which another one goes. -/
theorem replace (h : Balanced config book operations gone register) {oldest : Address}
    (hnew : client ∉ register.clients) (hold : oldest ∈ register.clients) :
    Balanced config book (operations + 1) gone
      { register with
        clients := register.clients.filter (· ≠ oldest) ++ [client]
        created := register.created + 1
        evicted := register.evicted + 1
        countedCreated := register.countedCreated + 1
        countedEvicted := register.countedEvicted + 1 } := by
  have hlength := SessionTable.length_filter_ne h.nodup hold
  refine (h.sweep (h.nodup.filter _) hlength).join ?_ ?_
  · exact fun hmem => hnew (List.mem_of_mem_filter hmem)
  · exact Nat.le_trans (Nat.le_of_eq hlength) h.length_le

/-- **A client leaves.** -/
theorem leave (h : Balanced config book operations gone register)
    (hmem : client ∈ register.clients) :
    Balanced config book operations (gone + 1)
      { register with clients := register.clients.filter (· ≠ client) } := by
  have hlength := SessionTable.length_filter_ne h.nodup hmem
  obtain ⟨created, evicted, hcreated, hevicted, hbalance, hle⟩ := h.balance
  refine { h with nodup := h.nodup.filter _, length_le := ?_, balance := ?_ }
  · have hle := h.length_le
    simp only
    omega
  · refine ⟨created, evicted, hcreated, hevicted, ?_, hle⟩
    simp only
    omega

end Balanced

/-! ### What stays -/

/-- **The register and the queues stay**: the sessions' contents may change, and other things may
be counted. -/
structure Kept (before after : Relay) : Prop where
  register_eq : after.register = before.register
  queues_eq : after.queues = before.queues

namespace Kept

theorem refl (relay : Relay) : Kept relay relay := ⟨rfl, rfl⟩

theorem trans {a b c : Relay} (hab : Kept a b) (hbc : Kept b c) : Kept a c :=
  ⟨hbc.register_eq.trans hab.register_eq, hbc.queues_eq.trans hab.queues_eq⟩

theorem store (relay : Relay) (session : Session) : Kept relay (relay.store session) := by
  refine ⟨?_, rfl⟩
  rw [register, register, Relay.store, SessionTable.addresses_modify _ fun _ => rfl]
  rfl

theorem noteSent (relay : Relay) (bytes : Bytes) (result : Except String Unit) :
    Kept relay (relay.noteSent bytes result).2 := by
  rcases result with reason | taken <;> exact ⟨rfl, rfl⟩

theorem noteForward (relay : Relay) (arrival : Arrival) (taken lost : Nat) :
    Kept relay (relay.noteForward arrival taken lost) := by
  rw [Relay.noteForward]
  split <;> exact ⟨rfl, rfl⟩

theorem countFailure (relay : Relay) (fault : Fault) : Kept relay (relay.countFailure fault) := by
  unfold Relay.countFailure
  split
  · exact ⟨rfl, rfl⟩
  · exact ⟨rfl, rfl⟩
  · split <;> exact ⟨rfl, rfl⟩

theorem assemble {relay after : Relay} {clock : Clock} {session : Session}
    {packets : List SubPacket} {result : Except Fault Session.Assembled}
    (h : relay.assemble clock session packets = (result, after)) : Kept relay after := by
  have hstored : (relay.assemble clock session packets).2 = after := by rw [h]
  rw [← hstored]
  exact store relay _

theorem acceptEncrypted (relay : Relay) (clock : Clock) (client : Address) (datagram : Bytes) :
    Kept relay (relay.acceptEncrypted clock client datagram).2 := by
  rw [Relay.acceptEncrypted]
  rcases relay.session? client with _ | session
  · exact refl relay
  · rcases hreceive : session.receive relay.book relay.scratch clock.now datagram with
      ⟨result, received, scratch⟩
    simp only [hreceive]
    exact ⟨(store { relay with scratch } received).register_eq, rfl⟩

theorem noteRotation (relay : Relay) (datagram : Session.Assembled) :
    Kept relay (relay.noteRotation datagram) := by
  rw [Relay.noteRotation]
  split <;> exact ⟨rfl, rfl⟩

/-- Once a datagram was accepted, handling it changes no more. -/
theorem handle (world : World) (journal : Journal) (relay : Relay) (clock : Clock)
    (client : Address) (datagram : Bytes) :
    Kept (relay.accept clock client datagram).2
      (perform (relay.handle world.outlets clock client datagram) journal).1.2 := by
  rcases haccept : relay.accept clock client datagram with ⟨fault | arrival, after⟩
  · rw [perform_handle_error haccept]
    exact refl after
  · by_cases hrefused : Refused world journal client arrival.receipt.resend
    · obtain ⟨bytes, reason, hresend, hsend⟩ := hrefused
      rw [perform_handle_refused haccept hresend hsend]
      exact ⟨rfl, rfl⟩
    · obtain ⟨resent, ready, results, -, hready, -, hhandle⟩ :=
        perform_handle_ok haccept hrefused
      rw [hhandle]
      refine trans ?_ (noteForward ready arrival _ _)
      rcases hready with rfl | ⟨size, rfl⟩
      · exact refl _
      · exact ⟨rfl, rfl⟩

/-- The same goes for a datagram as it is read from the socket, once it was counted. -/
theorem receive (world : World) (journal : Journal) (relay : Relay) (clock : Clock)
    (client : Address) (datagram : Bytes) :
    Kept ((relay.count (·.datagramReceived datagram.length.toUInt64)).accept clock client
        datagram).2
      (perform (relay.receive world.outlets clock client datagram) journal).1 := by
  have hhandled := handle world journal
    (relay.count (·.datagramReceived datagram.length.toUInt64)) clock client datagram
  rw [Relay.receive, perform_bind]
  rcases hhandle : perform ((relay.count (·.datagramReceived datagram.length.toUInt64)).handle
    world.outlets clock client datagram) journal with ⟨⟨fault | taken, after⟩, journal'⟩
  · rw [hhandle] at hhandled
    exact hhandled.trans (countFailure after fault)
  · rw [hhandle] at hhandled
    exact hhandled

theorem keepAlive (world : World) (journal : Journal) (relay : Relay) (clock : Clock)
    (client : Address) :
    Kept relay (perform (relay.keepAlive world.outlets clock client) journal).1.2 := by
  rcases hsession : relay.session? client with _ | session
  · simp only [Relay.keepAlive, hsession]
    exact refl relay
  · rcases hassemble : relay.assemble clock session [] with ⟨fault | datagram, after⟩
    · simp only [Relay.keepAlive, hsession, hassemble]
      exact assemble hassemble
    · simp only [Relay.keepAlive, hsession, hassemble, perform_write]
      exact (assemble hassemble).trans (noteSent after _ _)

end Kept

/-- **Flushing a client leaves the register as it is.** -/
theorem Rounds.register_eq {world : World} {clock : Clock} {client : Address}
    {relay last : Relay} {journal journal' : Journal} {packets : List SubPacket} {sent : Nat}
    (hrounds : Rounds world clock client relay journal packets sent last journal') :
    last.register = relay.register := by
  induction hrounds with
  | emptied relay journal => rfl
  | absent journal hsession => rfl
  | unpacked journal hpackets hsession hassemble => exact (Kept.assemble hassemble).register_eq
  | stalled journal hpackets hsession hassemble hconsumed =>
    exact (Kept.assemble hassemble).register_eq
  | refused hpackets hsession hassemble hconsumed hsend =>
    exact ((Kept.assemble hassemble).trans (Kept.noteRotation _ _)).register_eq
  | taken hpackets hsession hassemble hconsumed hsend hrest ih =>
    exact ih.trans ((Kept.assemble hassemble).trans (Kept.noteRotation _ _)).register_eq

end Relay

end ZoneRelay
