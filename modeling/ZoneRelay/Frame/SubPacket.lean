import ZoneRelay.Bytes
import ZoneRelay.Fault

/-!
# Sub-packets

A sub-packet is an application message: a type of nine bits, a sequence number and a
payload. Framed, it is four bytes followed by the payload, filled up with zeros to a
multiple of four:

* the low eight bits of the type,
* its ninth bit, and above it, in seven bits, the framed length in units of four bytes,
* the sequence number.

So no frame is longer than `127 * 4` bytes.
-/

namespace ZoneRelay

namespace Frame

/-- The type of the login request. -/
def loginType : UInt16 := 0x00A

/-- The type that changes the zone, and with it the key. -/
def zoneType : UInt16 := 0x00B

/-- The nine bits of a type. -/
def typeMask : UInt16 := 0x1FF

/-- The size of a sub-packet's own header. -/
def subHeaderSize : Nat := 4

/-- The size of the largest frame. -/
def maxFrameSize : Nat := 508

/-- One application message. -/
structure SubPacket where
  kind : UInt16
  sequence : UInt16
  payload : Bytes
  deriving DecidableEq

namespace SubPacket

/-- A sub-packet without a sequence number yet, its type cut to nine bits. -/
def make (kind : UInt16) (payload : Bytes) : SubPacket := ⟨kind &&& typeMask, 0, payload⟩

/-- The framed length. -/
def frameLength (packet : SubPacket) : Nat :=
  Bytes.roundUp4 (subHeaderSize + packet.payload.length)

/-- The frame of a sub-packet that is short enough, under the given sequence number. -/
def frame (packet : SubPacket) (sequence : UInt16) : Bytes :=
  let units := (packet.frameLength / 4).toUInt8
  packet.kind.toUInt8 :: (((packet.kind >>> 8) &&& 1).toUInt8 ||| (units <<< 1)) ::
    (Bytes.ofU16 sequence ++ packet.payload ++
      Bytes.zeros (packet.frameLength - subHeaderSize - packet.payload.length))

/-- Frames a sub-packet under the given sequence number. -/
def encode (packet : SubPacket) (sequence : UInt16) : Except Fault Bytes :=
  if maxFrameSize < packet.frameLength then .error (.oversizedPacket packet.payload.length)
  else .ok (packet.frame sequence)

/-- Appends the frame of a sub-packet to a buffer. One that is too large for a frame leaves the
buffer as it is. -/
def append (packet : SubPacket) (sequence : UInt16) (buffer : Bytes) : Except Fault Unit × Bytes :=
  match packet.encode sequence with
  | .error fault => (.error fault, buffer)
  | .ok frame => (.ok (), buffer ++ frame)

/-- Appends the frames of sub-packets, each under a sequence number of its own, up to the first
that is too large for one. -/
def appendAll : List (SubPacket × UInt16) → Bytes → Except Fault Unit × Bytes
  | [], buffer => (.ok (), buffer)
  | (packet, sequence) :: rest, buffer =>
    match packet.append sequence buffer with
    | (.error fault, buffer) => (.error fault, buffer)
    | (.ok (), buffer) => appendAll rest buffer

/-- A frame has the framed length. -/
@[simp] theorem length_frame (packet : SubPacket) (sequence : UInt16) :
    (packet.frame sequence).length = packet.frameLength := by
  have := Bytes.le_roundUp4 (subHeaderSize + packet.payload.length)
  simp only [frame, frameLength, subHeaderSize, List.length_cons, List.length_append,
    Bytes.length_ofU16, Bytes.length_zeros] at *
  omega

end SubPacket

end Frame

end ZoneRelay
