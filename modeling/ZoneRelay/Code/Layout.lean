import ZoneRelay.Code.Lengths
import ZoneRelay.Code.Trie

/-!
# The resource words of a code

From code lengths, the words of the two resources that the encoder and the trie are loaded
from. The encode table is `ZoneRelay.Code.Encoder.toWords`. In the decode table a node is
a *path*, the bits that lead to it from the root: the paths of a code are the beginnings of
its words, numbered in the order in which the words of bytes `0`, `1`, … first pass through
them, the empty path – the root – being `0`. Node `k` occupies words `1 + 4 * k` on.
-/

namespace ZoneRelay

namespace Code

namespace Lengths

variable (lengths : Lengths)

/-- The code of each byte. -/
def words : List (UInt8 × Bits) := allBytes.map fun b => (b, lengths.word b)

/-- The beginnings of a bit string, the empty one first. -/
def beginnings (word : Bits) : List Bits := (List.range (word.length + 1)).map word.take

/-- The paths of the code, numbered. -/
def paths : Numbering Bits :=
  (Numbering.empty.meet []).2.meetAll (lengths.words.flatMap fun entry => beginnings entry.2)

end Lengths

/-- The first word of a node. -/
def slotOf (node : Nat) : Nat := 1 + 4 * node

/-- The pointer to a node. -/
def pointerTo (node : Nat) : UInt32 := 0x1000 + 4 * (slotOf node).toUInt32

/-- The entry for a child: a pointer to it, or zero if there is none. -/
def childEntry : Option Nat → UInt32
  | some node => pointerTo node
  | none => 0

namespace Lengths

variable (lengths : Lengths)

/-- The words of the encode table. -/
def encodeWords : List UInt32 := lengths.encoder.toWords

/-- The words of the decode table. -/
def decodeWords : List UInt32 :=
  let codes := lengths.words
  let paths := lengths.paths
  let bytes := Std.HashMap.ofList (codes.map fun entry => (entry.2, entry.1))
  pointerTo 0 :: paths.items.toList.flatMap fun path =>
    [childEntry paths.ids[path ++ [false]]?, childEntry paths.ids[path ++ [true]]?, 0,
      ((bytes[path]?).map (·.toUInt32)).getD 0]

end Lengths

end Code

end ZoneRelay
