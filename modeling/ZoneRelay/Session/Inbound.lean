import ZoneRelay.BufferPool
import ZoneRelay.Code.Book
import ZoneRelay.Frame.Demux
import ZoneRelay.Login
import ZoneRelay.Session.Basic

/-!
# What a datagram brings

A datagram of a client is opened, its stream decompressed into a scratch buffer of 4096
bytes, and the region taken apart. Of its sub-packets those are accepted that are login
requests or whose number lies in the session's window: above the last number of the
client, and not above the datagram's own. **The window does not move while the datagram is
read**; when something was accepted, the client's number moves to the datagram's
afterwards. An acknowledgement below the last sent datagram asks for that one again.

A login datagram is taken apart in the clear and asks for nothing.
-/

namespace ZoneRelay

namespace Session

open ZoneRelay.Frame

/-- How a datagram was accepted. -/
inductive Kind where
  /-- As a login, in the clear. -/
  | login
  /-- Under a key of the session. -/
  | opened (opening : Opening)
  deriving DecidableEq, Repr

/-- What a datagram brought. -/
structure Receipt where
  header : Header
  kind : Kind
  /-- The accepted sub-packets, in order. -/
  packets : List SubPacket
  /-- The number of sub-packets outside the window. -/
  skipped : Nat
  ending : Ending
  /-- The last datagram sent, if the client has not seen it. -/
  resend : Option Bytes
  deriving DecidableEq

/-- What lies in a region: accepted sub-packets, the number of others, and the ending. -/
structure Harvest where
  packets : List SubPacket
  skipped : Nat
  ending : Ending
  deriving DecidableEq

/-- Whether a sub-packet is accepted. -/
def accepts (session : Session) (headerSequence : UInt16) (raw : RawPacket) : Bool :=
  raw.kind == loginType || session.inWindow raw.sequence headerSequence

/-- Takes a region apart. -/
def harvest (session : Session) (headerSequence : UInt16) (region : Bytes) : Harvest × Session :=
  let (raws, ending) := demux region
  let (accepted, others) := raws.partition (session.accepts headerSequence)
  let session := if accepted.isEmpty then session else session.advance headerSequence
  (⟨accepted.map (·.toSubPacket), others.length, ending⟩, session)

/-- What a valid login datagram brings. -/
def receiveLogin (session : Session) (now : Instant) (datagram : Bytes) (login : Login) :
    Receipt × Session :=
  let (found, session) := session.harvest login.header.sequence (Login.body datagram)
  (⟨login.header, .login, found.packets, found.skipped, found.ending, none⟩, session.touch now)

/-- Sixteen buffers that the largest region fits in. -/
def regionBuffers : BufferPool := BufferPool.make 16 maxDatagramSize

/-- Decompresses a stream in a buffer of a pool. -/
def unpack (book : Code.Book) (pool : BufferPool) (stream : Bytes) (bitCount : UInt32) :
    Except Fault Bytes × BufferPool :=
  let (scratch, pool) := pool.acquire
  let (result, buffer) := book.decompress stream bitCount scratch
  (result.map fun size => buffer.take size, pool.release buffer)

/-- The header and the region of a clear datagram. -/
def openRegion (book : Code.Book) (pool : BufferPool) (clear : Bytes) :
    Except Fault (Header × Bytes) × BufferPool :=
  match Header.ofDatagram clear with
  | .error fault => (.error fault, pool)
  | .ok header =>
    match compressedRegion clear with
    | .error fault => (.error fault, pool)
    | .ok (stream, bitCount) =>
      let (region, pool) := unpack book pool stream bitCount
      (region.map fun region => (header, region), pool)

/-- What an encrypted datagram brings. -/
def receive (book : Code.Book) (pool : BufferPool) (session : Session) (now : Instant)
    (datagram : Bytes) : Except Fault Receipt × Session × BufferPool :=
  let least := headerSize + checksumSize + 1
  if datagram.length < least then
    (.error (.inputTruncated least datagram.length), session, pool)
  else
    match session.decrypt datagram with
    | (.error fault, session) => (.error fault, session, pool)
    | (.ok (opening, clear), session) =>
      match openRegion book pool clear with
      | (.error fault, pool) => (.error fault, session, pool)
      | (.ok (header, region), pool) =>
        let (found, session) := session.harvest header.sequence region
        (.ok ⟨header, .opened opening, found.packets, found.skipped, found.ending,
          session.resendFor header.ack⟩, session.touch now, pool)

end Session

end ZoneRelay
