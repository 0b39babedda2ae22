import ZoneRelay.Bytes
import ZoneRelay.Cipher.Pi

/-!
# The block cipher

A Feistel cipher of sixteen rounds on blocks of two 32-bit words. Its schedule holds
eighteen round keys and four substitution tables of 256 words. A round adds its key to the
left word and the substitution of the result (`ZoneRelay.Cipher.Schedule.substitute`) to
the right one, and swaps them; after the rounds the last swap is taken back and two more
keys are added. Decryption is the same with the round keys in reverse, whatever the
schedule.

A schedule is expanded from a hash. Its round keys start as the first words of π with the
hash, read over and over, added to them; then the cipher encrypts a block of zeros again
and again with the schedule as it stands, and the results replace first the round keys
and then the tables, two words at a time.

**The bytes of the hash are signed.** Reading four of them into a word, a byte from `0x80`
on is extended by ones, which flood the bytes read before it
(`ZoneRelay.Cipher.foldSigned`). Without the extension (`ZoneRelay.Cipher.foldPlain`)
this is the cipher of the published test vectors.
-/

namespace ZoneRelay

namespace Cipher

/-- The left and the right word of a block. -/
structure Block where
  left : UInt32
  right : UInt32
  deriving DecidableEq

/-- The round keys and the substitution tables. -/
structure Schedule where
  keys : Vector UInt32 18
  box₀ : Vector UInt32 256
  box₁ : Vector UInt32 256
  box₂ : Vector UInt32 256
  box₃ : Vector UInt32 256
  deriving DecidableEq

/-- The entry of a substitution table for a byte. -/
def lookup (box : Vector UInt32 256) (b : UInt8) : UInt32 := box.get ⟨b.toNat, b.toNat_lt⟩

namespace Schedule

variable (schedule : Schedule)

/-- The substitution of a word: its four bytes, highest first, through the four tables. -/
def substitute (x : UInt32) : UInt32 :=
  let a := lookup schedule.box₀ (x >>> 24).toUInt8
  let b := lookup schedule.box₁ (x >>> 16).toUInt8
  let c := lookup schedule.box₂ (x >>> 8).toUInt8
  let d := lookup schedule.box₃ x.toUInt8
  ((a + b) ^^^ c) + d

/-- One round with the given key. -/
def round (key : UInt32) (block : Block) : Block :=
  let left := block.left ^^^ key
  ⟨block.right ^^^ schedule.substitute left, left⟩

/-- Sixteen rounds and the two last keys. -/
def run (keys : List UInt32) (whiten₀ whiten₁ : UInt32) (block : Block) : Block :=
  let block := keys.foldl (fun block key => schedule.round key block) block
  ⟨block.right ^^^ whiten₁, block.left ^^^ whiten₀⟩

/-- Encrypts a block. -/
def encrypt (block : Block) : Block :=
  let keys := schedule.keys.toList
  schedule.run (keys.take 16) schedule.keys[16] schedule.keys[17] block

/-- Decrypts a block. -/
def decrypt (block : Block) : Block :=
  let keys := schedule.keys.toList
  schedule.run (keys.reverse.take 16) schedule.keys[1] schedule.keys[0] block

end Schedule

/-! ### Expanding a hash -/

/-- The schedule before any key: the words of π. -/
def Schedule.initial : Schedule := ⟨Pi.rounds, Pi.box₀, Pi.box₁, Pi.box₂, Pi.box₃⟩

/-- A byte with its sign extended to 32 bits. -/
def signExtend (b : UInt8) : UInt32 := if b < 0x80 then b.toUInt32 else b.toUInt32 ||| 0xFFFFFF00

/-- Four bytes read into a word, highest first, each extended by its sign. -/
def foldSigned (group : Bytes) : UInt32 :=
  group.foldl (fun word b => (word <<< 8) ||| signExtend b) 0

/-- Four bytes read into a word, highest first. -/
def foldPlain (group : Bytes) : UInt32 :=
  group.foldl (fun word b => (word <<< 8) ||| b.toUInt32) 0

/-- The four bytes that round key `i` takes from a hash that is read over and over. -/
def keyGroup (hash : Bytes) (i : Nat) : Bytes :=
  (List.range 4).map fun k => Bytes.byteAt hash ((4 * i + k) % hash.length)

/-- The schedule with a hash added to the round keys. -/
def Schedule.keyed (fold : Bytes → UInt32) (hash : Bytes) : Schedule :=
  { Schedule.initial with
    keys := Vector.ofFn fun i : Fin 18 => Pi.rounds[i] ^^^ fold (keyGroup hash i) }

/-- A schedule and the last block that was encrypted with it. -/
structure Expansion where
  schedule : Schedule
  block : Block

namespace Expansion

/-- Encrypts the block once more and stores its words with `store`. -/
def next (expansion : Expansion) (store : Schedule → Block → Schedule) : Expansion :=
  let block := expansion.schedule.encrypt expansion.block
  ⟨store expansion.schedule block, block⟩

/-- The words of a block stored at positions `2 * i` and `2 * i + 1`. -/
def put {n : Nat} (words : Vector UInt32 n) (i : Nat) (block : Block) : Vector UInt32 n :=
  (words.setIfInBounds (2 * i) block.left).setIfInBounds (2 * i + 1) block.right

/-- Replaces `count` pairs of words, the pair `i` being stored by `store i`. -/
def fill (expansion : Expansion) (count : Nat) (store : Nat → Schedule → Block → Schedule) :
    Expansion :=
  (List.range count).foldl (fun expansion i => expansion.next (store i)) expansion

end Expansion

/-- The schedule of a hash. -/
def Schedule.expand (fold : Bytes → UInt32) (hash : Bytes) : Schedule :=
  let start : Expansion := ⟨Schedule.keyed fold hash, ⟨0, 0⟩⟩
  let filled := start
    |>.fill 9 (fun i s block => { s with keys := Expansion.put s.keys i block })
    |>.fill 128 (fun i s block => { s with box₀ := Expansion.put s.box₀ i block })
    |>.fill 128 (fun i s block => { s with box₁ := Expansion.put s.box₁ i block })
    |>.fill 128 (fun i s block => { s with box₂ := Expansion.put s.box₂ i block })
    |>.fill 128 (fun i s block => { s with box₃ := Expansion.put s.box₃ i block })
  filled.schedule

end Cipher

end ZoneRelay
