import ZoneRelay.Bytes
import ZoneRelay.Fault

/-!
# Resource words

The code tables are kept in resource files that are flat arrays of little-endian 32-bit
words. A file whose length is no multiple of four is refused.
-/

namespace ZoneRelay

namespace Code

/-- The words of a resource file. -/
def words (data : Bytes) : Except TableFault (Array UInt32) :=
  if data.length % 4 = 0 then .ok (Bytes.words data).toArray else .error (.ragged data.length)

/-- Reading the resource file made of given words. -/
@[simp] theorem words_ofWords (ws : List UInt32) : words (Bytes.ofWords ws) = .ok ws.toArray := by
  simp [words]

end Code

end ZoneRelay
