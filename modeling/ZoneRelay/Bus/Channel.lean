import ZoneRelay.Bus.Frame

/-!
# A bus within the process

Two bounded **lanes** of frames join the relay and its workers: the packets of clients
leave on one, the workers' replies come back on the other. A lane holds frames, oldest
first, and has two ends:

* when its **receiver** is gone nothing can be put on it any more;
* when its **sender** is gone what is on it can still be taken.

The relay never waits: a lane without room is a fault. A worker waits for room.
-/

namespace ZoneRelay

namespace Bus

/-- A bounded lane of frames. -/
structure Lane where
  capacity : Nat
  frames : List Bytes
  hasSender : Bool
  hasReceiver : Bool
  deriving DecidableEq

namespace Lane

/-- An empty lane with room for at least one frame. -/
def empty (capacity : Nat) : Lane := ⟨max 1 capacity, [], true, true⟩

/-- Whether a lane has no room. -/
def isFull (lane : Lane) : Bool := lane.capacity ≤ lane.frames.length

/-- Puts a frame on a lane. -/
def push (lane : Lane) (frame : Bytes) : Lane := { lane with frames := lane.frames ++ [frame] }

/-- The lane without its sender. -/
def dropSender (lane : Lane) : Lane := { lane with hasSender := false }

/-- The lane without its receiver. -/
def dropReceiver (lane : Lane) : Lane := { lane with hasReceiver := false, frames := [] }

/-- What taking from a lane comes to. -/
inductive Taken where
  /-- A packet, or the fault of a frame that does not read as one. -/
  | packet (result : Except Fault Routed)
  /-- Nothing yet. -/
  | pending
  /-- Nothing any more. -/
  | closed

/-- Takes the oldest frame from a lane. -/
def take (lane : Lane) : Taken × Lane :=
  match lane.frames with
  | frame :: frames => (.packet ((decodeFrame frame).map (·.1)), { lane with frames })
  | [] => (if lane.hasSender then .pending else .closed, lane)

end Lane

/-- The lanes of a bus and the format of its frames. -/
structure Channel where
  format : Format
  toWorkers : Lane
  toRelay : Lane
  deriving DecidableEq

namespace Channel

/-- A bus whose lanes have room for the given number of frames. -/
def empty (capacity : Nat) (format : Format) : Channel :=
  ⟨format, Lane.empty capacity, Lane.empty capacity⟩

variable (channel : Channel)

/-- The relay puts a client's packet on the bus, if there is room. -/
def publish (routed : Routed) : Except Fault Unit × Channel :=
  let lane := channel.toWorkers
  if !lane.hasReceiver then (.error (.bus .workerClosed), channel)
  else if lane.isFull then (.error (.bus .workerFull), channel)
  else (.ok (), { channel with toWorkers := lane.push (encodeFrame channel.format routed) })

/-- A worker puts a reply on the bus. Gives `false` if the worker has to wait for room. -/
def reply (routed : Routed) : Except Fault Bool × Channel :=
  let lane := channel.toRelay
  if !lane.hasReceiver then (.error (.bus .relayClosed), channel)
  else if lane.isFull then (.ok false, channel)
  else (.ok true, { channel with toRelay := lane.push (encodeFrame channel.format routed) })

/-- A worker takes a client's packet. -/
def takePacket : Lane.Taken × Channel :=
  let (taken, lane) := channel.toWorkers.take
  (taken, { channel with toWorkers := lane })

/-- A worker takes all packets of clients that are there. -/
def takePackets : List (Except Fault Routed) × Channel :=
  (channel.toWorkers.frames.map fun frame => (decodeFrame frame).map (·.1),
    { channel with toWorkers := { channel.toWorkers with frames := [] } })

/-- The relay takes a reply. -/
def takeReply : Lane.Taken × Channel :=
  let (taken, lane) := channel.toRelay.take
  (taken, { channel with toRelay := lane })

/-- The relay stops publishing. -/
def dropPublisher : Channel := { channel with toWorkers := channel.toWorkers.dropSender }

/-- The workers are gone. -/
def dropWorkers : Channel :=
  { channel with
    toWorkers := channel.toWorkers.dropReceiver
    toRelay := channel.toRelay.dropSender }

/-- The relay takes no replies any more. -/
def dropReplies : Channel := { channel with toRelay := channel.toRelay.dropReceiver }

end Channel

end Bus

end ZoneRelay
