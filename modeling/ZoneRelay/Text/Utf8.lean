import ZoneRelay.Bytes

/-!
# UTF-8

Decoding as a machine that reads one byte at a time. Between characters it is idle;
inside one it knows how many bytes are still owed and which range the next byte has to
lie in – the ranges after the lead bytes `E0`, `ED`, `F0` and `F4` are the narrow ones
that keep out overlong forms, surrogates and values above `10FFFF`.

A byte outside the range ends the character **before** that byte: what was read so far is
one ill-formed subpart, and the byte itself is read again from the idle state. So an
ill-formed text decodes to one hole per maximal ill-formed subpart. The strict reading
(`ZoneRelay.Utf8.decode?`) refuses a text with a hole, the lossy one
(`ZoneRelay.Utf8.decodeLossy`) puts the replacement character into it.
-/

namespace ZoneRelay

namespace Utf8

/-- The inside of a character: bytes still owed, the range of the next one, and the
scalar value read so far. -/
structure Pending where
  owed : Nat
  low : UInt8
  high : UInt8
  value : Nat
  deriving DecidableEq, Repr

/-- Where the machine stands: between characters or inside one. -/
abbrev State := Option Pending

/-- A byte read between characters: what it completes, and the state after it. -/
def opening (b : UInt8) : List (Option Char) × State :=
  if b < 0x80 then ([some (Char.ofNat b.toNat)], none)
  else if 0xC2 ≤ b ∧ b ≤ 0xDF then ([], some ⟨1, 0x80, 0xBF, b.toNat % 32⟩)
  else if b = 0xE0 then ([], some ⟨2, 0xA0, 0xBF, 0⟩)
  else if b = 0xED then ([], some ⟨2, 0x80, 0x9F, 13⟩)
  else if 0xE1 ≤ b ∧ b ≤ 0xEF then ([], some ⟨2, 0x80, 0xBF, b.toNat % 16⟩)
  else if b = 0xF0 then ([], some ⟨3, 0x90, 0xBF, 0⟩)
  else if 0xF1 ≤ b ∧ b ≤ 0xF3 then ([], some ⟨3, 0x80, 0xBF, b.toNat % 8⟩)
  else if b = 0xF4 then ([], some ⟨3, 0x80, 0x8F, 4⟩)
  else ([none], none)

/-- One byte: what it completes, `none` for an ill-formed subpart, and the state after it. -/
def step : State → UInt8 → List (Option Char) × State
  | none, b => opening b
  | some p, b =>
    if p.low ≤ b ∧ b ≤ p.high then
      let value := p.value * 64 + b.toNat % 64
      if p.owed ≤ 1 then ([some (Char.ofNat value)], none)
      else ([], some ⟨p.owed - 1, 0x80, 0xBF, value⟩)
    else (none :: (opening b).1, (opening b).2)

/-- Decodes from a state. A character cut off by the end is an ill-formed subpart. -/
def decodeFrom : State → Bytes → List (Option Char)
  | none, [] => []
  | some _, [] => [none]
  | state, b :: rest => (step state b).1 ++ decodeFrom (step state b).2 rest

/-- The characters of a byte string, with a hole for each ill-formed subpart. -/
def decode (data : Bytes) : List (Option Char) := decodeFrom none data

/-- The text of a well-formed byte string. -/
def decode? (data : Bytes) : Option String :=
  ((decode data).mapM id).map String.ofList

/-- The text of a byte string, `U+FFFD` in place of each ill-formed subpart. -/
def decodeLossy (data : Bytes) : String :=
  String.ofList ((decode data).map fun c => c.getD '\uFFFD')

/-- The bytes of a text. -/
def encode (text : String) : Bytes := text.toList.flatMap String.utf8EncodeChar

end Utf8

end ZoneRelay
