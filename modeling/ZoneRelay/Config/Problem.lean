/-!
# Configuration problems

What a check of a configuration can find, one constructor for each limit, and the
sentence that reports it. Values that a sentence quotes are carried along.
-/

namespace ZoneRelay

namespace Config

/-- A limit that a configuration does not keep. -/
inductive Problem where
  /-- No listen address. -/
  | bindAddressEmpty
  /-- The listen address is no socket address. -/
  | bindAddressMalformed (address : String)
  /-- The receive buffer cannot hold the largest datagram. -/
  | receiveBufferTooSmall (size : Nat)
  /-- The shutdown timeout is above its limit. -/
  | shutdownTimeoutTooLong
  /-- No session is allowed. -/
  | noSessions
  /-- No directory for the code tables. -/
  | resourcePathEmpty
  /-- The idle timeout is below its limit. -/
  | idleTimeoutTooShort
  /-- The sweep interval is below its limit. -/
  | sweepIntervalTooShort
  /-- The sweep interval is above the idle timeout. -/
  | sweepIntervalTooLong
  /-- The adjusted byte is outside the key. -/
  | adjustmentOutsideKey (index : Nat)
  /-- The flush interval is below its limit. -/
  | flushIntervalTooShort
  /-- The flush interval is above its limit. -/
  | flushIntervalTooLong
  /-- The number of sub-packets in a datagram is out of range. -/
  | subPacketLimit (count : Nat)
  /-- No queued sub-packet is allowed. -/
  | noBacklog
  /-- The bus holds nothing. -/
  | noBusCapacity
  /-- The application has no name. -/
  | appNameEmpty
  /-- The application's name is above its limit. -/
  | appNameTooLong (bytes : Nat)
  deriving DecidableEq, Repr

/-- The sentence that reports a problem. -/
def Problem.message : Problem → String
  | .bindAddressEmpty => "Bind address cannot be empty"
  | .bindAddressMalformed address =>
    "Invalid bind address format: '" ++ address ++ "' (expected format: '0.0.0.0:54230')"
  | .receiveBufferTooSmall size =>
    "Receive buffer too small: " ++ toString size ++ " (minimum: 4096)"
  | .shutdownTimeoutTooLong => "Shutdown timeout too long (maximum: 60s)"
  | .noSessions => "Max sessions must be greater than 0"
  | .resourcePathEmpty => "Codec resource path cannot be empty"
  | .idleTimeoutTooShort => "Idle timeout too short (minimum: 1s)"
  | .sweepIntervalTooShort => "Sweep interval too short (minimum: 100ms)"
  | .sweepIntervalTooLong => "Sweep interval cannot exceed the idle timeout"
  | .adjustmentOutsideKey index =>
    "Key adjustment index " ++ toString index ++ " outside the 20-byte key"
  | .flushIntervalTooShort => "Flush interval too short (minimum: 1ms)"
  | .flushIntervalTooLong => "Flush interval too long (maximum: 1s)"
  | .subPacketLimit count => "Sub-packets per datagram must be 1-10, got " ++ toString count
  | .noBacklog => "Backlog limit must be greater than 0"
  | .noBusCapacity => "Bus channel capacity must be greater than 0"
  | .appNameEmpty => "Application name cannot be empty"
  | .appNameTooLong bytes =>
    "Application name too long: " ++ toString bytes ++ " characters (maximum: 64)"

end Config

end ZoneRelay
