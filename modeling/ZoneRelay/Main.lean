import Std.Async.Signal
import Std.Async.Timer
import Std.Async.UDP
import ZoneRelay.Launch
import ZoneRelay.Relay.Upkeep

/-!
# The program

Reads what it needs, binds its socket and serves clients until it is interrupted. Everything
it decides is decided by `ZoneRelay.Relay`; this file reads the clock, the files and the
socket, and writes what the relay wants written.

The packets that clients send are put on a bus in the process. No workers are attached, so
they are taken from it and dropped.
-/

namespace ZoneRelay

namespace Program

open Std.Async Std.Net

/-! ### Files and the environment -/

/-- Why the operating system refused, in its own words where they are known. Some numbers of
errors come negated. -/
def reason (e : IO.Error) : String :=
  let numbered (text : String) (code : UInt32) :=
    text ++ " (os error " ++ toString (min code (0 - code)) ++ ")"
  match e with
  | .noFileOrDirectory _ code _ => numbered "No such file or directory" code
  | .permissionDenied _ code _ => numbered "Permission denied" code
  | .inappropriateType _ code _ => numbered "Is a directory" code
  | e => toString e

/-- The contents of a file. -/
def readFile (path : String) : IO Contents := do
  try
    return .ok (← IO.FS.readBinFile path).toList
  catch e => return .error (reason e)

/-- The variables of the environment that can be read. -/
def environment : IO Config.Environment := do
  let names := ["BIND_ADDRESS", "RESOURCE_PATH", "FLUSH_INTERVAL_MS", "IDLE_TIMEOUT_MS",
    "MAX_SESSIONS", "LOG_LEVEL"].map Config.variableName
  let values ← names.mapM fun name => return (name, ← IO.getEnv name)
  return fun name => (values.find? fun entry => entry.1 == name).bind (·.2)

/-! ### The socket -/

/-- An address for the socket. -/
def socketAddress : Address → SocketAddress
  | .v4 a b c d port => .v4 ⟨⟨#v[a, b, c, d]⟩, port⟩
  | .v6 groups _ port => .v6 ⟨⟨groups⟩, port⟩

/-- The address that a socket gives. -/
def addressOf : SocketAddress → Address
  | .v4 ⟨⟨octets⟩, port⟩ => .v4 octets[0] octets[1] octets[2] octets[3] port
  | .v6 ⟨⟨segments⟩, port⟩ => .v6 segments 0 port

/-- The ways out of the program: the socket, and a bus in the process. -/
def outlets (socket : UDP.Socket) : Outlets (StateT Bus.Channel IO) where
  send client bytes := do
    try
      (socket.send ⟨bytes.toArray⟩ (some (socketAddress client))).block
      return .ok ()
    catch e => return .error (reason e)
  publish routed := modifyGet fun channel => channel.publish routed

/-- The time. -/
def clock : IO Clock := do
  let seconds := (← Std.Time.Timestamp.now).toSecondsSinceUnixEpoch
  return ⟨← IO.monoMsNow, seconds.val.toNat.toUInt32⟩

/-! ### Serving -/

/-- What the program waits for. -/
inductive Event where
  /-- A datagram of a client. -/
  | datagram (client : Address) (bytes : Bytes)
  /-- A datagram that could not be read. -/
  | failure
  /-- Time to send what waits. -/
  | tick
  /-- The end. -/
  | interrupt

/-- The relay, its bus, and when what waits is sent and idle sessions are looked for. -/
structure Serving where
  relay : Relay
  channel : Bus.Channel
  nextFlush : Nat
  nextSweep : Nat

/-- Waits for a datagram, for the given time to pass, or for the end. -/
def next (socket : UDP.Socket) (size : UInt64) (interrupted : Signal.Waiter) (pause : Nat) :
    Async Event := do
  let timer ← Selector.sleep (Std.Time.Millisecond.Offset.ofNat pause)
  try
    Selectable.one #[
      .case (socket.recvSelector size) fun (data, sender) =>
        return match sender with
          | some client => .datagram (addressOf client) data.toList
          | none => .failure,
      .case timer fun _ => return .tick,
      .case interrupted.selector fun _ => return .interrupt]
  catch _ => return .failure

/-- Sends what waits. -/
def flush (socket : UDP.Socket) (serving : Serving) : IO Serving := do
  let now ← clock
  let ((_, relay), channel) ← (serving.relay.flush (outlets socket) now).run serving.channel
  let interval := max 1 relay.config.outbound.flushInterval
  return { serving with relay, channel := channel.takePackets.2, nextFlush := now.now + interval }

/-- Looks for idle sessions if it is time to. -/
def sweep (serving : Serving) : IO Serving := do
  let now ← clock
  if now.now < serving.nextSweep then return serving
  let (_, relay) := serving.relay.sweep now
  let interval := max 1 relay.config.session.sweepInterval
  return { serving with relay, nextSweep := now.now + interval }

/-- Serves until the end, and then sends what waits. -/
partial def serve (socket : UDP.Socket) (interrupted : Signal.Waiter) (serving : Serving) :
    IO Unit := do
  let now ← clock
  let size := serving.relay.config.server.receiveBuffer.toUInt64
  match ← (next socket size interrupted (serving.nextFlush - now.now)).block with
  | .datagram client bytes =>
    let (relay, channel) ←
      (serving.relay.receive (outlets socket) (← clock) client bytes).run serving.channel
    serve socket interrupted { serving with relay, channel := channel.takePackets.2 }
  | .failure => serve socket interrupted serving
  | .tick => serve socket interrupted (← sweep (← flush socket serving))
  | .interrupt => discard (flush socket serving)

/-- Binds the socket and serves. -/
def run (setup : Setup) : IO (Except Fault Unit) := do
  match setup.config.check, Address.ofText? setup.config.server.bindAddress with
  | .error fault, _ => return .error fault
  | _, none => return .error (.io "invalid socket address")
  | .ok _, some address =>
    try
      let socket ← UDP.Socket.mk
      socket.bind (socketAddress address)
      let interrupted ← Signal.Waiter.mk .sigint false
      let relay := Relay.start setup.config setup.book setup.keys.provider
      let channel := Bus.Channel.empty setup.config.bus.capacity setup.config.bus.format
      let now ← IO.monoMsNow
      serve socket interrupted ⟨relay, channel, now, now⟩
      return .ok ()
    catch e => return .error (.io (reason e))

/-! ### The command line -/

/-- Writes how the program ends; its exit code. -/
def finish (outcome : Outcome) : IO UInt32 := do
  (← IO.getStdout).putStr outcome.output
  (← IO.getStderr).putStr outcome.errors
  return outcome.code

/-- Carries out a command; the program's exit code. -/
def carryOut (command : Command) : IO UInt32 := do
  match ← Launch.ofCommand readFile (← environment) command with
  | .ended outcome => finish outcome
  | .ready setup =>
    match ← run setup with
    | .error fault => finish (.failure fault)
    | .ok _ => return 0

end Program

end ZoneRelay

/-- Carries out what the command line asks for. -/
def main (arguments : List String) : IO UInt32 :=
  ZoneRelay.Program.carryOut (ZoneRelay.Command.ofArguments arguments)
