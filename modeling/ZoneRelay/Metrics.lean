/-!
# Counters

What the relay counts while it runs. The counters are 64-bit words and wrap; each event has
a function that counts it, and `ZoneRelay.Metrics.named` lists all counters with the names
they are reported under.
-/

namespace ZoneRelay

/-- The counters. -/
structure Metrics where
  /-- Datagrams read from the socket. -/
  datagramsReceived : UInt64
  /-- Datagrams written to the socket, repeated ones included. -/
  datagramsSent : UInt64
  bytesReceived : UInt64
  bytesSent : UInt64
  /-- Accepted login datagrams. -/
  logins : UInt64
  /-- Datagrams that no key of their session opens. -/
  decryptFailures : UInt64
  /-- Datagrams opened by the key before a pending change. -/
  previousKeyDecrypts : UInt64
  /-- Logins with a wrong inner sum. -/
  checksumFailures : UInt64
  /-- Datagrams that cannot be decoded. -/
  decodeErrors : UInt64
  /-- Sub-packets that the bus took. -/
  subPacketsForwarded : UInt64
  /-- Sub-packets outside the window of their session. -/
  subPacketsSkipped : UInt64
  keyRotations : UInt64
  /-- Datagrams sent again. -/
  resends : UInt64
  sessionsCreated : UInt64
  /-- Sessions removed because they were idle or the table was full. -/
  sessionsEvicted : UInt64
  /-- Failures to publish a packet or to read a reply. -/
  busErrors : UInt64
  deriving DecidableEq, Repr

namespace Metrics

/-- Nothing counted yet. -/
def zero : Metrics := ⟨0, 0, 0, 0, 0, 0, 0, 0, 0, 0, 0, 0, 0, 0, 0, 0⟩

variable (metrics : Metrics)

/-- A datagram was read. -/
def datagramReceived (bytes : UInt64) : Metrics :=
  { metrics with
    datagramsReceived := metrics.datagramsReceived + 1
    bytesReceived := metrics.bytesReceived + bytes }

/-- A datagram was written. -/
def datagramSent (bytes : UInt64) : Metrics :=
  { metrics with
    datagramsSent := metrics.datagramsSent + 1
    bytesSent := metrics.bytesSent + bytes }

/-- A login was accepted. -/
def login : Metrics := { metrics with logins := metrics.logins + 1 }

/-- No key opened a datagram. -/
def decryptFailure : Metrics := { metrics with decryptFailures := metrics.decryptFailures + 1 }

/-- The key before a pending change opened a datagram. -/
def previousKeyDecrypt : Metrics :=
  { metrics with previousKeyDecrypts := metrics.previousKeyDecrypts + 1 }

/-- A login had a wrong inner sum. -/
def checksumFailure : Metrics :=
  { metrics with checksumFailures := metrics.checksumFailures + 1 }

/-- A datagram could not be decoded. -/
def decodeError : Metrics := { metrics with decodeErrors := metrics.decodeErrors + 1 }

/-- Sub-packets of a datagram were forwarded, others skipped. -/
def subPackets (forwarded skipped : UInt64) : Metrics :=
  { metrics with
    subPacketsForwarded := metrics.subPacketsForwarded + forwarded
    subPacketsSkipped := metrics.subPacketsSkipped + skipped }

/-- A session changed its key. -/
def keyRotation : Metrics := { metrics with keyRotations := metrics.keyRotations + 1 }

/-- A datagram is sent again. -/
def resend : Metrics := { metrics with resends := metrics.resends + 1 }

/-- A session was created. -/
def sessionCreated : Metrics := { metrics with sessionsCreated := metrics.sessionsCreated + 1 }

/-- Sessions were evicted. -/
def evictions (count : UInt64) : Metrics :=
  { metrics with sessionsEvicted := metrics.sessionsEvicted + count }

/-- The bus failed. -/
def busError : Metrics := { metrics with busErrors := metrics.busErrors + 1 }

/-- The counters with their names. -/
def named : List (String × UInt64) :=
  [("datagrams_received", metrics.datagramsReceived),
    ("datagrams_sent", metrics.datagramsSent),
    ("bytes_received", metrics.bytesReceived),
    ("bytes_sent", metrics.bytesSent),
    ("logins", metrics.logins),
    ("decrypt_failures", metrics.decryptFailures),
    ("previous_key_decrypts", metrics.previousKeyDecrypts),
    ("checksum_failures", metrics.checksumFailures),
    ("decode_errors", metrics.decodeErrors),
    ("subpackets_forwarded", metrics.subPacketsForwarded),
    ("subpackets_skipped", metrics.subPacketsSkipped),
    ("key_rotations", metrics.keyRotations),
    ("resends", metrics.resends),
    ("sessions_created", metrics.sessionsCreated),
    ("sessions_evicted", metrics.sessionsEvicted),
    ("bus_errors", metrics.busErrors)]

end Metrics

end ZoneRelay
