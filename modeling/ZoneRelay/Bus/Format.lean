import ZoneRelay.Bytes

/-!
# The formats of the bus

A packet travels over the bus in one of two formats, and the first byte of its frame says
in which.
-/

namespace ZoneRelay

namespace Bus

/-- The formats of a frame. -/
inductive Format where
  /-- Fields of fixed width, one after another. -/
  | binary
  /-- A JSON text. -/
  | json
  deriving DecidableEq, Repr

namespace Format

/-- The first byte of a frame. -/
def byte : Format → UInt8
  | binary => 1
  | json => 2

/-- The format that a first byte stands for. -/
def ofByte? (b : UInt8) : Option Format :=
  if b = 1 then some binary else if b = 2 then some json else none

/-- The name of a format. -/
def name : Format → String
  | binary => "Bincode"
  | json => "JSON"

/-- A format is recovered from its byte. -/
@[simp] theorem ofByte?_byte (format : Format) : ofByte? format.byte = some format := by
  cases format <;> rfl

end Format

end Bus

end ZoneRelay
