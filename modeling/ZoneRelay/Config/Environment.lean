import ZoneRelay.Config.Basic
import ZoneRelay.Fault

/-!
# Configuration from the environment

Six settings can be given in environment variables; all others are the standard ones. The
variables are read in a fixed order, and the first that cannot be read is reported.
-/

namespace ZoneRelay

namespace Config

/-- The variables of the environment by name. -/
abbrev Environment := String → Option String

/-- The full name of a variable. -/
def variableName (name : String) : String := "MAP_ROUTER_" ++ name

/-- A number below `2 ^ 64` from a variable, or else the given one. -/
def Environment.number (environment : Environment) (name : String) (standard : Nat) :
    Except Fault Nat :=
  match environment (variableName name) with
  | none => .ok standard
  | some text =>
    match Text.readUnsigned UInt64.size text with
    | .ok n => .ok n
    | .error fault => .error (.settings (.malformedNumber (variableName name) fault))

/-- A log level from a variable, or else the given one. -/
def Environment.level (environment : Environment) (name : String) (standard : Level) :
    Except Fault Level :=
  match environment (variableName name) with
  | none => .ok standard
  | some text =>
    match Level.ofText? text with
    | some level => .ok level
    | none => .error (.settings (.malformedLevel (variableName name) text))

/-- A text from a variable, or else the given one. -/
def Environment.text (environment : Environment) (name standard : String) : String :=
  (environment (variableName name)).getD standard

/-- The configuration that an environment gives. -/
def ofEnvironment (environment : Environment) : Except Fault Config := do
  let bindAddress := environment.text "BIND_ADDRESS" standard.server.bindAddress
  let resourcePath := environment.text "RESOURCE_PATH" standard.codec.resourcePath
  let flushInterval ←
    environment.number "FLUSH_INTERVAL_MS" standard.outbound.flushInterval
  let idleTimeout ← environment.number "IDLE_TIMEOUT_MS" standard.session.idleTimeout
  let maxSessions ← environment.number "MAX_SESSIONS" standard.server.maxSessions
  let level ← environment.level "LOG_LEVEL" standard.logging.level
  return { standard with
    server := { standard.server with bindAddress, maxSessions }
    codec := ⟨resourcePath⟩
    session := { standard.session with idleTimeout }
    outbound := { standard.outbound with flushInterval }
    logging := { standard.logging with level } }

end Config

end ZoneRelay
