import ZoneRelay.Config.Basic
import ZoneRelay.Fault
import ZoneRelay.Toml.Reader
import ZoneRelay.Toml.Written

/-!
# Configuration files

A configuration file is a TOML text with a table for each section. A section that is left
out has its standard settings; in one that is there no setting may be left out but the key
adjustment. Other keys are ignored. A section may also be given as a list of its settings
in order.

`ZoneRelay.Config.render` writes the file of a configuration, section by section; a key
adjustment gets a table of its own behind its section.
-/

namespace ZoneRelay

namespace Config

open Toml (Value)

/-! ### Reading -/

/-- A number of 64 bits. -/
def count? (value : Value) : Option Nat := value.below? UInt64.size

/-- The server section. -/
def Server.ofToml? (value : Value) : Option Server := do
  match ← value.record?
      ["bind_address", "recv_buffer_size", "shutdown_timeout", "max_sessions"] with
  | [some address, some buffer, some timeout, some sessions] =>
    return ⟨← address.text?, ← count? buffer, ← count? timeout, ← count? sessions⟩
  | _ => none

/-- The codec section. -/
def Codec.ofToml? (value : Value) : Option Codec := do
  match ← value.record? ["resource_path"] with
  | [some path] => return ⟨← path.text?⟩
  | _ => none

/-- A key adjustment. -/
def Adjustment.ofToml? (value : Value) : Option Adjustment := do
  match ← value.record? ["index", "delta"] with
  | [some index, some delta] => return ⟨← count? index, (← delta.below? 256).toUInt8⟩
  | _ => none

/-- The session section. -/
def Lifetime.ofToml? (value : Value) : Option Lifetime := do
  match ← value.record? ["idle_timeout", "sweep_interval", "first_login_key_adjustment"] with
  | [some idle, some sweep, none] => return ⟨← count? idle, ← count? sweep, none⟩
  | [some idle, some sweep, some adjustment] =>
    return ⟨← count? idle, ← count? sweep, some (← Adjustment.ofToml? adjustment)⟩
  | _ => none

/-- The outbound section. -/
def Outbound.ofToml? (value : Value) : Option Outbound := do
  match ← value.record? ["flush_interval", "max_subpackets_per_datagram", "backlog_limit"] with
  | [some interval, some packets, some backlog] =>
    return ⟨← count? interval, ← count? packets, ← count? backlog⟩
  | _ => none

/-- The name of a format. -/
def formatName : ZoneRelay.Bus.Format → String
  | .binary => "bincode"
  | .json => "json"

/-- The format with a name. -/
def formatOfName? (name : String) : Option ZoneRelay.Bus.Format :=
  [.binary, .json].find? fun format => formatName format == name

/-- A format: its name, or a table whose only key is its name, with nothing in it. -/
def formatOfToml? (value : Value) : Option ZoneRelay.Bus.Format :=
  match value with
  | .text name => formatOfName? name
  | .table _ [(name, .table _ [])] => formatOfName? name
  | .table _ [(name, .list [])] => formatOfName? name
  | _ => none

/-- The bus section. -/
def Bus.ofToml? (value : Value) : Option Bus := do
  match ← value.record? ["channel_capacity", "format"] with
  | [some capacity, some format] => return ⟨← count? capacity, ← formatOfToml? format⟩
  | _ => none

/-- The logging section. -/
def Logging.ofToml? (value : Value) : Option Logging := do
  match ← value.record? ["app_name", "log_level", "json_format", "metrics_interval"] with
  | [some name, some level, some json, some interval] =>
    return ⟨← name.text?, ← Level.ofText? (← level.text?), ← json.boolean?, ← count? interval⟩
  | _ => none

/-- A section by name, or else the given one. -/
def section? {α : Type} (fields : Toml.Fields) (name : String) (standard : α)
    (read : Value → Option α) : Option α :=
  match fields.get? name with
  | none => some standard
  | some value => read value

/-- The configuration of a table of sections. -/
def ofFields? (fields : Toml.Fields) : Option Config := do
  return {
    server := ← section? fields "server" standard.server Server.ofToml?
    codec := ← section? fields "codec" standard.codec Codec.ofToml?
    session := ← section? fields "session" standard.session Lifetime.ofToml?
    outbound := ← section? fields "outbound" standard.outbound Outbound.ofToml?
    bus := ← section? fields "bus" standard.bus Bus.ofToml?
    logging := ← section? fields "logging" standard.logging Logging.ofToml? }

/-- The configuration that a text spells. -/
def ofText (text : String) : Except Fault Config :=
  match Toml.read? text with
  | none => .error (.settings (.malformedConfig "not a TOML text"))
  | some value =>
    match (value.fields?).bind ofFields? with
    | none => .error (.settings (.malformedConfig "not a configuration"))
    | some config => .ok config

/-! ### Writing -/

/-- A setting as it is written. -/
inductive Setting where
  | text (s : String)
  | count (n : Nat)
  | truth (b : Bool)

/-- A setting that a file can hold. -/
def Setting.render : Setting → Except Fault String
  | .text s => .ok (Toml.quoted s)
  | .count n => if n < Toml.integerBound then .ok (toString n) else .error (.settings .unwritableNumber)
  | .truth b => .ok (if b then "true" else "false")

/-- A table with its header. -/
def renderTable (name : String) (settings : List (String × Setting)) : Except Fault String := do
  let lines ← settings.mapM fun (key, setting) => do
    return key ++ " = " ++ (← setting.render) ++ "\n"
  return "[" ++ name ++ "]\n" ++ String.join lines

/-- The tables of a configuration. -/
def tables (config : Config) : List (String × List (String × Setting)) :=
  [("server", [("bind_address", .text config.server.bindAddress),
      ("recv_buffer_size", .count config.server.receiveBuffer),
      ("shutdown_timeout", .count config.server.shutdownTimeout),
      ("max_sessions", .count config.server.maxSessions)]),
    ("codec", [("resource_path", .text config.codec.resourcePath)]),
    ("session", [("idle_timeout", .count config.session.idleTimeout),
      ("sweep_interval", .count config.session.sweepInterval)])] ++
  (config.session.adjustment.toList.map fun adjustment =>
    ("session.first_login_key_adjustment", [("index", .count adjustment.index),
      ("delta", .count adjustment.delta.toNat)])) ++
  [("outbound", [("flush_interval", .count config.outbound.flushInterval),
      ("max_subpackets_per_datagram", .count config.outbound.maxSubPackets),
      ("backlog_limit", .count config.outbound.backlogLimit)]),
    ("bus", [("channel_capacity", .count config.bus.capacity),
      ("format", .text (formatName config.bus.format))]),
    ("logging", [("app_name", .text config.logging.appName),
      ("log_level", .text config.logging.level.name),
      ("json_format", .truth config.logging.json),
      ("metrics_interval", .count config.logging.metricsInterval)])]

/-- The file of a configuration, its tables with an empty line between them. -/
def render (config : Config) : Except Fault String := do
  let tables ← config.tables.mapM fun (name, settings) => renderTable name settings
  return String.intercalate "\n" tables

/-- The file of the standard configuration. -/
def standardText : Except Fault String := render standard

end Config

end ZoneRelay
