import ZoneRelay.Code.Book
import ZoneRelay.Frame.SubPacket
import ZoneRelay.Session.Basic

/-!
# Packing datagrams

Sub-packets that wait for a client are packed from the front into one datagram: their
frames, all under the relay's sequence number, a zero byte behind them, compressed,
sealed, and encrypted behind the header. As many are packed as

* the limit of sub-packets in a datagram allows,
* keep header and frames below 4096 bytes, and
* compress into the room that header and trailer leave; if they do not, one less is tried.

The datagram is kept in case the client misses it. When it holds a zone packet the key
changes **after** it is encrypted, so that the client can read it under the key it has.
-/

namespace ZoneRelay

namespace Session

open ZoneRelay.Frame

/-- The room for a compressed stream in a datagram. -/
def maxStreamSize : Nat := maxDatagramSize - headerSize - bitCountSize - checksumSize

/-- The largest number of sub-packets in a datagram. -/
def maxSubPackets : Nat := 10

/-- A number of sub-packets brought into the range from one to ten. -/
def clampLimit (limit : Nat) : Nat := max 1 (min limit maxSubPackets)

/-- A datagram that is ready to be sent. -/
structure Assembled where
  bytes : Bytes
  sequence : UInt16
  /-- How many of the waiting sub-packets it holds. -/
  consumed : Nat
  /-- Whether the key changed after it. -/
  rotated : Bool
  deriving DecidableEq

/-- Frames one after another, as long as they fit behind those in `region`: all frames, and
how many sub-packets they hold. -/
def frames (sequence : UInt16) (region : Bytes) : List SubPacket → Except Fault (Bytes × Nat)
  | [] => .ok (region, 0)
  | packet :: rest =>
    if maxDatagramSize ≤ headerSize + region.length + packet.frameLength then .ok (region, 0)
    else
      match packet.encode sequence with
      | .error fault => .error fault
      | .ok frame => (frames sequence (region ++ frame) rest).map fun r => (r.1, r.2 + 1)

/-- A region with a zero byte behind it, if there is room for one. -/
def terminated (region : Bytes) : Bytes :=
  if headerSize + region.length < maxDatagramSize then region ++ [0] else region

/-- The encrypted datagram of a region, for the given clock. -/
def encodeRegion (book : Code.Book) (session : Session) (timestamp : UInt32) (region : Bytes) :
    Except Fault Bytes :=
  match book.compress region (Bytes.zeros maxStreamSize) with
  | (.error fault, _) => .error fault
  | (.ok bits, stream) =>
    let header : Header := ⟨session.serverSequence, session.clientSequence, timestamp⟩
    let clear := header.toBytes ++ sealed (stream.take (Bits.byteCount bits.toNat)) bits
    .ok (session.current.schedule.encryptPacket headerSize clear)

/-- The datagram of as many of the given sub-packets as fit by length, and how many. -/
def build (book : Code.Book) (session : Session) (timestamp : UInt32)
    (packets : List SubPacket) : Except Fault (Bytes × Nat) :=
  match frames session.serverSequence [] packets with
  | .error fault => .error fault
  | .ok (region, consumed) =>
    (encodeRegion book session timestamp (terminated region)).map fun bytes => (bytes, consumed)

/-- The datagram of the first sub-packets, `limit` of them or fewer if they do not compress
into the room. -/
def buildUpTo (book : Code.Book) (session : Session) (timestamp : UInt32)
    (packets : List SubPacket) : (limit : Nat) → Except Fault (Bytes × Nat)
  | 0 => build book session timestamp []
  | limit + 1 =>
    match build book session timestamp (packets.take (limit + 1)) with
    | .error (.capacityExceeded needed available) =>
      if limit = 0 then .error (.capacityExceeded needed available)
      else buildUpTo book session timestamp packets limit
    | result => result

/-- Packs the waiting sub-packets into one datagram, at most `limit` of them. -/
def assemble (book : Code.Book) (limit : Nat) (session : Session) (timestamp : UInt32)
    (packets : List SubPacket) : Except Fault Assembled × Session :=
  match buildUpTo book session timestamp packets (min packets.length limit) with
  | .error fault => (.error fault, session)
  | .ok (bytes, consumed) =>
    let zone := (packets.take consumed).any (·.kind == zoneType)
    let after := session.recordSent bytes
    (.ok ⟨bytes, session.serverSequence, consumed, zone⟩,
      if zone then after.rotateKey else after)

end Session

end ZoneRelay
