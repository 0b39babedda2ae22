import ZoneRelay.Code.Bits
import ZoneRelay.Code.Words

/-!
# The encoder: a code for each byte

A **code** is a number of bits taken low bit first from a 32-bit pattern; as a bit string
it is `ZoneRelay.Code.Entry.word`. The encoder gives each of the 256 bytes its code.

Its resource holds at least 512 words: 256 patterns, then 256 lengths, both ordered by the
*signed* value of the byte, from `-128` to `127`. So byte `b` stands at position
`(b + 128) mod 256` of either half (`ZoneRelay.Code.signedIndex`).
-/

namespace ZoneRelay

namespace Code

/-- The code of one byte: `bits` bits of `pattern`, low bit first. -/
structure Entry where
  pattern : UInt32
  bits : Nat
  deriving DecidableEq

/-- A code as a bit string. -/
def Entry.word (entry : Entry) : Bits := Bits.ofNat entry.bits entry.pattern.toNat

@[simp] theorem Entry.length_word (entry : Entry) : entry.word.length = entry.bits := by
  simp [word]

/-- The bytes in order. -/
def allBytes : List UInt8 := (List.range 256).map Nat.toUInt8

theorem mem_allBytes (b : UInt8) : b ∈ allBytes :=
  List.mem_map.2 ⟨b.toNat, List.mem_range.2 b.toNat_lt, UInt8.ofNat_toNat⟩

/-- The position of a byte among the signed byte values. -/
def signedIndex (b : UInt8) : Nat := (b + 128).toNat

theorem signedIndex_lt (b : UInt8) : signedIndex b < 256 := UInt8.toNat_lt _

/-- The position of a byte in a table of 256 entries. -/
def index (b : UInt8) : Fin 256 := ⟨b.toNat, b.toNat_lt⟩

/-- The codes of all bytes. -/
structure Encoder where
  entries : Vector Entry 256
  deriving DecidableEq

namespace Encoder

/-- The code of a byte. -/
def entry (encoder : Encoder) (b : UInt8) : Entry := encoder.entries.get (index b)

/-- The encoder with the given code for each byte. -/
def ofFn (f : UInt8 → Entry) : Encoder := ⟨Vector.ofFn fun i => f i.val.toUInt8⟩

/-- Looking up a tabulated function. -/
theorem get_ofFn {α : Type} {n : Nat} (f : Fin n → α) (i : Fin n) :
    (Vector.ofFn f).get i = f i := by
  simp only [Vector.get, Vector.ofFn, Array.getElem_ofFn]
  rfl

@[simp] theorem entry_ofFn (f : UInt8 → Entry) (b : UInt8) : (ofFn f).entry b = f b := by
  rw [entry, ofFn, get_ofFn]
  exact congrArg f UInt8.ofNat_toNat

/-- The number of bits of the longest code. -/
def longest (encoder : Encoder) : Nat :=
  (allBytes.map fun b => (encoder.entry b).bits).foldl max 0

/-- The length word of a byte in an encode table. -/
def lengthWord (words : Array UInt32) (b : UInt8) : UInt32 :=
  words.getD (256 + signedIndex b) 0

/-- The pattern word of a byte in an encode table. -/
def patternWord (words : Array UInt32) (b : UInt8) : UInt32 := words.getD (signedIndex b) 0

/-- Reads an encode table. It has to hold 512 words, and no code more than 32 bits. -/
def ofWords (words : Array UInt32) : Except TableFault Encoder :=
  if words.size < 512 then .error (.encodeTooShort words.size)
  else
    match allBytes.find? fun b => 32 < lengthWord words b with
    | some b => .error (.codeTooLong (lengthWord words b) b)
    | none => .ok (ofFn fun b => ⟨patternWord words b, (lengthWord words b).toNat⟩)

/-- The words of an encode table, patterns before lengths, each by signed byte. -/
def toWords (encoder : Encoder) : List UInt32 :=
  let signed := (List.range 256).map fun i => encoder.entry (i.toUInt8 + 128)
  signed.map (·.pattern) ++ signed.map (·.bits.toUInt32)

end Encoder

end Code

end ZoneRelay
