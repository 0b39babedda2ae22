import ZoneRelay.Bus.Format
import ZoneRelay.Config.Level

/-!
# Configuration

What can be set about the relay, in six sections, and the settings it has unless others are
given. Times are in milliseconds, sizes and counts are natural numbers.
-/

namespace ZoneRelay

namespace Config

/-- The socket and the sessions on it. -/
structure Server where
  bindAddress : String
  /-- The size of the buffer a datagram is read into. -/
  receiveBuffer : Nat
  /-- How long datagrams that are being handled may take at the end. -/
  shutdownTimeout : Nat
  maxSessions : Nat
  deriving DecidableEq, Repr

/-- The code tables. -/
structure Codec where
  /-- The directory of the two resource files. -/
  resourcePath : String
  deriving DecidableEq, Repr

/-- A number that is added to one byte of the key of a first login. -/
structure Adjustment where
  index : Nat
  delta : UInt8
  deriving DecidableEq, Repr

/-- How long sessions last. -/
structure Lifetime where
  /-- A session that is idle for longer is removed. -/
  idleTimeout : Nat
  /-- How often idle sessions are looked for. -/
  sweepInterval : Nat
  adjustment : Option Adjustment
  deriving DecidableEq, Repr

/-- Packing datagrams. -/
structure Outbound where
  /-- How often waiting sub-packets are sent. -/
  flushInterval : Nat
  /-- The largest number of sub-packets in a datagram. -/
  maxSubPackets : Nat
  /-- The largest number of sub-packets that wait for a client. -/
  backlogLimit : Nat
  deriving DecidableEq, Repr

/-- The bus to the workers. -/
structure Bus where
  capacity : Nat
  format : ZoneRelay.Bus.Format
  deriving DecidableEq, Repr

/-- The log. -/
structure Logging where
  appName : String
  level : Level
  json : Bool
  /-- How often the counters are logged, never if zero. -/
  metricsInterval : Nat
  deriving DecidableEq, Repr

end Config

open Config in
/-- A configuration. -/
structure Config where
  server : Server
  codec : Codec
  session : Lifetime
  outbound : Outbound
  bus : Config.Bus
  logging : Logging
  deriving DecidableEq, Repr

namespace Config

/-- The configuration unless another is given. -/
def standard : Config where
  server := ⟨"0.0.0.0:54230", 4096, 5000, 4096⟩
  codec := ⟨"resources"⟩
  session := ⟨60000, 5000, none⟩
  outbound := ⟨50, 10, 100⟩
  bus := ⟨1024, .binary⟩
  logging := ⟨"map-router", .info, false, 60000⟩

end Config

end ZoneRelay
