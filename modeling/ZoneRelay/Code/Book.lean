import ZoneRelay.Code.Layout

/-!
# The code book

The encoder and the trie together, and the streams they write and read. A stream is the
byte `1` followed by bits; its **bit count** includes the eight bits of that byte. Writing
puts the code of each input byte behind the last one; reading walks the trie from the root
and starts over after each byte it finds.

* **Writing goes into a buffer of a given size** and stops at the first code that would
  reach its end – the room is used up to, but not including, the last bit. The bits written
  so far stay, all other bits of the buffer keep their value, and the first byte is only
  set when everything fits.
* **Reading fills a buffer** and stops without a fault when it is full. A bit that no code
  continues with is a fault, but only if there is still room for a byte.
-/

namespace ZoneRelay

namespace Code

/-- The encoder and the trie of one code. -/
structure Book where
  encoder : Encoder
  trie : Trie
  deriving DecidableEq

namespace Book

/-- Loads both tables, the encode table first. -/
def ofWords (encode decode : Array UInt32) : Except TableFault Book := do
  let encoder ← Encoder.ofWords encode
  let trie ← Trie.ofWords decode
  return ⟨encoder, trie⟩

/-- Loads both resource files. -/
def ofBytes (encode decode : Bytes) : Except TableFault Book := do
  let encode ← words encode
  let decode ← words decode
  ofWords encode decode

end Book

/-- The code book with the given code lengths. -/
def Lengths.book (lengths : Lengths) : Except TableFault Book :=
  Book.ofWords lengths.encodeWords.toArray lengths.decodeWords.toArray

/-! ### Writing -/

/-- What was written: the bits, and the bits that would have been needed for the first
code that did not fit. -/
structure Written where
  bits : Bits
  overflow : Option Nat
  deriving DecidableEq

/-- Writes the codes of a byte string from position `used` on, every code ending before
position `room`. -/
def Encoder.write (encoder : Encoder) (room : Nat) : (used : Nat) → Bytes → Written
  | _, [] => ⟨[], none⟩
  | used, b :: rest =>
    let word := (encoder.entry b).word
    if room ≤ used + word.length then ⟨[], some (used + word.length)⟩
    else
      let tail := encoder.write room (used + word.length) rest
      ⟨word ++ tail.bits, tail.overflow⟩

namespace Book

/-- Compresses into a buffer: the bit count or a fault, and the buffer afterwards. -/
def compress (book : Book) (input : Bytes) : Bytes → Except Fault UInt32 × Bytes
  | [] => (.error (.capacityExceeded 8 0), [])
  | first :: body =>
    let room := 8 * body.length
    let written := book.encoder.write room 0 input
    let body := Bits.overwrite body written.bits
    match written.overflow with
    | some needed => (.error (.capacityExceeded needed room), first :: body)
    | none => (.ok (written.bits.length.toUInt32 + 8), 1 :: body)

/-- The size of a buffer into which any input of the given length fits. The last byte is
there because the last bit of a buffer is never used. -/
def maxCompressedLength (book : Book) (length : Nat) : Nat :=
  1 + Bits.byteCount (length * book.encoder.longest) + 1

/-- The compressed stream and its bit count. -/
def compressed (book : Book) (input : Bytes) : Except Fault (UInt32 × Bytes) :=
  match book.compress input (Bytes.zeros (book.maxCompressedLength input.length)) with
  | (.ok bits, buffer) => .ok (bits, buffer.take (Bits.byteCount bits.toNat))
  | (.error fault, _) => .error fault

end Book

/-! ### Reading -/

/-- What was read: the bytes, and the cause if the walk could not go on. -/
structure Read where
  bytes : Bytes
  stuck : Option StreamFault
  deriving DecidableEq

/-- Walks the trie from a node along bits, the first of them number `i`, for at most
`room` bytes. -/
def Trie.walk (trie : Trie) : (room node i : Nat) → Bits → Read
  | 0, _, _, _ => ⟨[], none⟩
  | _, _, _, [] => ⟨[], none⟩
  | room + 1, node, i, bit :: rest =>
    match trie.child? node bit with
    | none => ⟨[], some (.missingChild i)⟩
    | some child =>
      match trie.node? child with
      | some (.leaf byte) =>
        let tail := trie.walk room 0 (i + 1) rest
        ⟨byte :: tail.bytes, tail.stuck⟩
      | some (.branch _ _) => trie.walk (room + 1) child (i + 1) rest
      | none => ⟨[], some (.outsideTrie child)⟩

/-- The data bits of a stream with the given bit count, if it has the right form. -/
def dataBits (input : Bytes) (bitCount : UInt32) : Except Fault Bits :=
  match input with
  | [] => .error (.corruptStream .empty)
  | first :: data =>
    let required := Bits.byteCount bitCount.toNat
    if bitCount < 8 then .error (.corruptStream .shortBitCount)
    else if data.length + 1 < required then
      .error (.corruptStream (.shortInput bitCount.toNat required (data.length + 1)))
    else if first ≠ 1 then .error .invalidHeader
    else .ok ((Bits.ofBytes data).take (bitCount.toNat - 8))

namespace Book

/-- Decompresses into a buffer: the number of bytes or a fault, and the buffer
afterwards. -/
def decompress (book : Book) (input : Bytes) (bitCount : UInt32) (buffer : Bytes) :
    Except Fault Nat × Bytes :=
  match dataBits input bitCount with
  | .error fault => (.error fault, buffer)
  | .ok bits =>
    let read := book.trie.walk buffer.length 0 0 bits
    let buffer := read.bytes ++ buffer.drop read.bytes.length
    match read.stuck with
    | some cause => (.error (.corruptStream cause), buffer)
    | none => (.ok read.bytes.length, buffer)

end Book

end Code

end ZoneRelay
