import ZoneRelay.Frame.Seal
import ZoneRelay.Frame.SubPacket

/-!
# Login datagrams

A client without a key introduces itself in the clear: behind the header stand raw
sub-packets, the first of them a login request of `0x5C` bytes, and at the end the digest
of all of them. The request holds at offset 2 a sync value, at offset 4 the sum of
its bytes from offset 8 on, and at offset 12 the character's number.

A datagram is taken for a login when its digest holds in the clear
(`ZoneRelay.Login.parse?`); then it has to be a valid one. A sync value above one asks to
start the sequence numbers over.
-/

namespace ZoneRelay

/-- A login request. -/
structure Login where
  header : Frame.Header
  character : UInt32
  sync : UInt16
  deriving DecidableEq

namespace Login

open ZoneRelay.Frame

/-- The size of a login request. -/
def requestSize : Nat := 0x5C

/-- Whether the client wants the sequence numbers to start over. -/
def wantsResync (login : Login) : Bool := 1 < login.sync

/-- What lies between the header and the digest, nothing in a datagram too short for
both. -/
def body (datagram : Bytes) : Bytes :=
  (datagram.take (datagram.length - checksumSize)).drop headerSize

/-- The sum of a login request's bytes from offset 8 on. -/
def requestSum (request : Bytes) : UInt8 := Bytes.sum8 ((request.take requestSize).drop 8)

/-- Reads a datagram as a login; `none` if its digest does not hold in the clear. -/
def parse? (datagram : Bytes) : Except Fault (Option Login) :=
  if !verifyChecksum datagram then .ok none
  else
    let body := body datagram
    let kind := Bytes.u16At body 0 &&& typeMask
    if body.length < 2 then .error (.malformedLogin .noSubPacket)
    else if kind ≠ loginType then .error (.malformedLogin (.otherType kind))
    else if body.length < requestSize then .error (.inputTruncated requestSize body.length)
    else if requestSum body ≠ Bytes.byteAt body 4 then .error .checksumMismatch
    else
      (Header.ofDatagram datagram).map fun header =>
        some ⟨header, Bytes.u32At body 12, Bytes.u16At body 2⟩

/-- The login request of a character. -/
def request (character : UInt32) (sync : UInt16) : Bytes :=
  let tail := Bytes.zeros 4 ++ Bytes.ofU32 character ++ Bytes.zeros 76
  [0x0A, 0x2E] ++ Bytes.ofU16 sync ++ [Bytes.sum8 tail, 0, 0, 0] ++ tail

/-- The login datagram of a character, as a client sends it, with `extra` bytes behind the
request. -/
def datagram (character : UInt32) (sync sequence : UInt16) (extra : Bytes) : Bytes :=
  let body := request character sync ++ extra
  (Header.mk sequence 0 0).toBytes ++ body ++ Digest.md5 body

end Login

end ZoneRelay
