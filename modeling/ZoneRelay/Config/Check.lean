import ZoneRelay.Config.Basic
import ZoneRelay.Fault

/-!
# Checking a configuration

Each section is checked for the limits it has to keep, and every limit that it does not
keep is reported, in the order of the sections (`ZoneRelay.Config.problems`). Upper limits
on times are compared in whole seconds, lower ones in milliseconds.
-/

namespace ZoneRelay

namespace Config

/-- The given problem, if the condition holds. -/
def report (condition : Bool) (problem : Problem) : List Problem :=
  if condition then [problem] else []

/-- Whole seconds. -/
def seconds (milliseconds : Nat) : Nat := milliseconds / 1000

/-- The problems of an address. -/
def addressProblems (address : String) : List Problem :=
  if address.isEmpty then [.bindAddressEmpty]
  else report (Address.ofText? address).isNone (.bindAddressMalformed address)

/-- The problems of the server section. -/
def Server.problems (server : Server) : List Problem :=
  addressProblems server.bindAddress ++
    report (server.receiveBuffer < 4096) (.receiveBufferTooSmall server.receiveBuffer) ++
    report (60 < seconds server.shutdownTimeout) .shutdownTimeoutTooLong ++
    report (server.maxSessions == 0) .noSessions

/-- The problems of the codec section. -/
def Codec.problems (codec : Codec) : List Problem :=
  report codec.resourcePath.isEmpty .resourcePathEmpty

/-- The problems of a key adjustment. -/
def Adjustment.problems (adjustment : Adjustment) : List Problem :=
  report (20 ≤ adjustment.index) (.adjustmentOutsideKey adjustment.index)

/-- The problems of the session section. -/
def Lifetime.problems (session : Lifetime) : List Problem :=
  report (session.idleTimeout < 1000) .idleTimeoutTooShort ++
    (if session.sweepInterval < 100 then [.sweepIntervalTooShort]
      else report (session.idleTimeout < session.sweepInterval) .sweepIntervalTooLong) ++
    (session.adjustment.map Adjustment.problems).getD []

/-- The problems of the outbound section. -/
def Outbound.problems (outbound : Outbound) : List Problem :=
  (if outbound.flushInterval < 1 then [.flushIntervalTooShort]
    else report (1 < seconds outbound.flushInterval) .flushIntervalTooLong) ++
    report (outbound.maxSubPackets == 0 || 10 < outbound.maxSubPackets)
      (.subPacketLimit outbound.maxSubPackets) ++
    report (outbound.backlogLimit == 0) .noBacklog

/-- The problems of the bus section. -/
def Bus.problems (bus : Bus) : List Problem := report (bus.capacity == 0) .noBusCapacity

/-- The problems of the logging section. The name is measured in UTF-8 bytes. -/
def Logging.problems (logging : Logging) : List Problem :=
  if logging.appName.isEmpty then [.appNameEmpty]
  else report (64 < logging.appName.utf8ByteSize) (.appNameTooLong logging.appName.utf8ByteSize)

/-- The problems of a configuration. -/
def problems (config : Config) : List Problem :=
  config.server.problems ++ config.codec.problems ++ config.session.problems ++
    config.outbound.problems ++ config.bus.problems ++ config.logging.problems

/-- Accepts a configuration without problems. -/
def check (config : Config) : Except Fault Unit :=
  if config.problems.isEmpty then .ok () else .error (.settings (.invalidConfig config.problems))

end Config

end ZoneRelay
