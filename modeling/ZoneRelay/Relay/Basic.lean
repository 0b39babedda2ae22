import ZoneRelay.Config.Basic
import ZoneRelay.Keys
import ZoneRelay.Metrics
import ZoneRelay.Relay.Queues
import ZoneRelay.Session.Inbound
import ZoneRelay.Session.Outbound
import ZoneRelay.Session.Table

/-!
# The relay

The relay's state: its settings, the code book, the source of keys, the sessions, what waits
for the clients, and the counters. Time comes from outside (`ZoneRelay.Clock`).
-/

namespace ZoneRelay

/-- The time: for idle sessions, and as it is written into datagrams. -/
structure Clock where
  now : Instant
  timestamp : UInt32

/-- The relay. -/
structure Relay where
  config : Config
  book : Code.Book
  provider : KeyProvider
  adjustment : KeyAdjustment
  sessions : SessionTable
  queues : Queues
  /-- The buffers that streams are decompressed in. -/
  scratch : BufferPool
  metrics : Metrics

namespace Relay

/-- The adjustment that a configuration asks for. -/
def adjustmentOf (config : Config) : KeyAdjustment :=
  match config.session.adjustment with
  | some adjustment => .addOnFirstLogin adjustment.index adjustment.delta
  | none => .none

/-- A relay without sessions. -/
def start (config : Config) (book : Code.Book) (provider : KeyProvider) : Relay where
  config
  book
  provider
  adjustment := adjustmentOf config
  sessions := SessionTable.empty config.server.maxSessions
  queues := Queues.empty
  scratch := Session.regionBuffers
  metrics := Metrics.zero

variable (relay : Relay)

/-- The largest number of sub-packets in a datagram. -/
def packetLimit : Nat := Session.clampLimit relay.config.outbound.maxSubPackets

/-- The session of a client. -/
def session? (client : Address) : Option Session := relay.sessions.get? client

/-- The number of sub-packets that wait for a client. -/
def queued (client : Address) : Nat := (relay.queues.waiting client).length

/-- Puts a client's session in the place of what was there. -/
def store (session : Session) : Relay :=
  { relay with sessions := relay.sessions.modify session.address fun _ => session }

/-- Changes the counters. -/
def count (change : Metrics → Metrics) : Relay := { relay with metrics := change relay.metrics }

/-- Counts the failure of a datagram: one counter for those that no key opens, one for
logins with a wrong sum, one for those that cannot be decoded. -/
def countFailure (fault : Fault) : Relay :=
  match fault with
  | .decryptionFailure => relay.count (·.decryptFailure)
  | .checksumMismatch => relay.count (·.checksumFailure)
  | fault => if fault.category = .decode then relay.count (·.decodeError) else relay

end Relay

end ZoneRelay
