import ZoneRelay.Bytes
import ZoneRelay.Fault

/-!
# Datagram headers

Every datagram starts with 28 bytes in the clear: the sender's sequence number, the
last sequence number it saw from the other side, four zeros, a timestamp, and zeros.
-/

namespace ZoneRelay

namespace Frame

/-- The size of a header. -/
def headerSize : Nat := 28

/-- The size of the digest at the end of a datagram. -/
def checksumSize : Nat := 16

/-- The size of the bit count in front of the digest. -/
def bitCountSize : Nat := 4

/-- The size of the largest datagram. -/
def maxDatagramSize : Nat := 4096

/-- A datagram header. -/
structure Header where
  sequence : UInt16
  ack : UInt16
  timestamp : UInt32
  deriving DecidableEq

namespace Header

/-- The 28 bytes of a header. -/
def toBytes (header : Header) : Bytes :=
  Bytes.ofU16 header.sequence ++ Bytes.ofU16 header.ack ++ Bytes.zeros 4 ++
    Bytes.ofU32 header.timestamp ++ Bytes.zeros 16

@[simp] theorem length_toBytes (header : Header) : header.toBytes.length = 28 := by
  simp [toBytes]

/-- The header of a datagram of at least 28 bytes. -/
def ofDatagram (datagram : Bytes) : Except Fault Header :=
  if datagram.length < headerSize then .error (.inputTruncated headerSize datagram.length)
  else
    .ok ⟨Bytes.u16At datagram 0, Bytes.u16At datagram 2, Bytes.u32At datagram 8⟩

/-- The header in front of any bytes is read back. -/
theorem ofDatagram_append (header : Header) (rest : Bytes) :
    ofDatagram (header.toBytes ++ rest) = .ok header := by
  have long : ¬ (header.toBytes ++ rest).length < headerSize := by simp [headerSize]
  obtain ⟨sequence, ack, timestamp⟩ := header
  rw [ofDatagram, if_neg long]
  simp [Bytes.u16At, Bytes.u32At, Bytes.byteAt, toBytes, Bytes.ofU16, Bytes.ofU32, Bytes.zeros,
    Bytes.u16_ofU16, Bytes.u32_ofU32, List.replicate]

end Header

end Frame

end ZoneRelay
