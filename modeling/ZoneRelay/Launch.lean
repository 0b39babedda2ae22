import ZoneRelay.Config.Check
import ZoneRelay.Config.Environment
import ZoneRelay.Launch.Command
import ZoneRelay.Launch.Files

/-!
# Starting the relay

What has to be read before the relay can serve (`ZoneRelay.prepare`): the configuration –
from a file, or else from the environment – which is checked at once, then both code tables,
then the keys. The first that fails is reported and ends the program. Every other command
ends it at once (`ZoneRelay.Launch.ofCommand`).

Files are read by a function of any monad that is given from outside.
-/

namespace ZoneRelay

/-! ### Getting ready -/

/-- All that is needed to serve. -/
structure Setup where
  config : Config
  book : Code.Book
  keys : KeyStore

variable {m : Type → Type} [Monad m]

/-- A configuration that passes its check. -/
def Config.checked (config : Config) : Except Fault Config := config.check.map fun _ => config

/-- The configuration from a file or else from the environment, checked. -/
def prepareConfig (read : String → m Contents) (environment : Config.Environment)
    (options : Options) : m (Except Fault Config) := do
  match options.config with
  | some path => return (Config.ofFile path (← read path)).bind Config.checked
  | none => return (Config.ofEnvironment environment).bind Config.checked

/-- The code book of a directory. -/
def prepareBook (read : String → m Contents) (directory : String) :
    m (Except Fault Code.Book) := do
  let encode ← read (joinPath directory Code.encodeFile)
  let decode ← read (joinPath directory Code.decodeFile)
  return Code.Book.ofFiles directory encode decode

/-- The keys of a file, none without one. -/
def prepareKeys (read : String → m Contents) (options : Options) : m (Except Fault KeyStore) := do
  match options.keys with
  | some path => return KeyStore.ofFile (← read path)
  | none => return .ok KeyStore.empty

/-- Reads all that is needed to serve, up to the first fault. -/
def prepare (read : String → m Contents) (environment : Config.Environment)
    (options : Options) : m (Except Fault Setup) := do
  match ← prepareConfig read environment options with
  | .error fault => return .error fault
  | .ok config =>
    match ← prepareBook read config.codec.resourcePath with
    | .error fault => return .error fault
    | .ok book =>
      match ← prepareKeys read options with
      | .error fault => return .error fault
      | .ok keys => return .ok ⟨config, book, keys⟩

/-! ### Carrying out a command -/

/-- How the program ends: its exit code and what it writes. -/
structure Outcome where
  code : UInt32
  output : String
  errors : String
  deriving DecidableEq, Repr

namespace Outcome

/-- All went well. -/
def success (output : String) : Outcome := ⟨0, output, ""⟩

/-- A fault ends the program; it is reported on one line. -/
def failure (fault : Fault) : Outcome := ⟨1, "", "map-router: " ++ fault.message ++ "\n"⟩

end Outcome

/-- What a command comes to before anything is served. -/
inductive Launch where
  /-- The program ends at once. -/
  | ended (outcome : Outcome)
  /-- The program serves clients. -/
  | ready (setup : Setup)

namespace Launch

/-- How the program is called. -/
def usage : String :=
  "UDP map transport router\n\nUsage: map-router [OPTIONS]\n\nOptions:\n" ++
  "  -c, --config <CONFIG>  TOML configuration file; " ++
  "MAP_ROUTER_* environment variables are used when absent\n" ++
  "  -k, --keys <KEYS>      TOML file with per-character session keys\n" ++
  "      --print-config     Print the default configuration and exit\n" ++
  "  -h, --help             Print help\n" ++
  "  -V, --version          Print version\n"

/-- The standard configuration, shown. -/
def showConfig : Outcome :=
  match Config.standardText with
  | .error fault => .failure fault
  | .ok text => .success (text ++ "\n")

/-- Carries out a command up to the point where it has to serve. -/
def ofCommand (read : String → m Contents) (environment : Config.Environment) :
    Command → m Launch
  | .printConfig => return .ended showConfig
  | .version => return .ended (.success "map-router 0.4.0\n")
  | .help => return .ended (.success usage)
  | .misuse argument =>
    return .ended ⟨2, "", "error: unexpected argument '" ++ argument ++ "' found\n"⟩
  | .serve options => do
    match ← prepare read environment options with
    | .error fault => return .ended (.failure fault)
    | .ok setup => return .ready setup

end Launch

end ZoneRelay
