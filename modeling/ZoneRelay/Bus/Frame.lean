import ZoneRelay.Bus.Binary
import ZoneRelay.Bus.Format
import ZoneRelay.Bus.Record
import ZoneRelay.Fault

/-!
# Frames of the bus

A frame is the byte of its format followed by the packet in that format. Whoever reads a
frame needs to know nothing but the frame.
-/

namespace ZoneRelay

namespace Bus

/-- The frame of a packet. -/
def encodeFrame (format : Format) (routed : Routed) : Bytes :=
  format.byte ::
    match format with
    | .binary => Binary.encode routed
    | .json => Record.encode routed

/-- The packet in the given format. -/
def decodeBody (format : Format) (body : Bytes) : Except Fault Routed :=
  match format with
  | .binary =>
    match Binary.decode? body with
    | some routed => .ok routed
    | none => .error .binary
  | .json =>
    match Record.decode? body with
    | some routed => .ok routed
    | none => .error (.json "not a routed packet")

/-- The packet of a frame and its format. -/
def decodeFrame : Bytes → Except Fault (Routed × Format)
  | [] => .error (.bus .emptyFrame)
  | first :: body =>
    match Format.ofByte? first with
    | none => .error (.bus (.unknownFormat first))
    | some format => (decodeBody format body).map fun routed => (routed, format)

end Bus

end ZoneRelay
