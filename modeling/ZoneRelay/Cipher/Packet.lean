import ZoneRelay.Cipher.Key
import ZoneRelay.Cipher.Schedule

/-!
# Ciphering byte strings

A **cipher** is a session key with its schedule. Byte strings are ciphered block by block,
a block being eight bytes, its two words little-endian and the left one first; a rest of
fewer than eight bytes stays as it is.

Of a datagram only what follows the header is ciphered, and of that the longest prefix of
whole blocks (`ZoneRelay.Cipher.regionLength`).
-/

namespace ZoneRelay

namespace Cipher

/-- Applies a function to every whole block of a byte string. -/
def mapBlocks (f : Block → Block) : Bytes → Bytes
  | a :: b :: c :: d :: e :: g :: h :: i :: rest =>
    let block := f ⟨Bytes.u32 a b c d, Bytes.u32 e g h i⟩
    Bytes.ofU32 block.left ++ Bytes.ofU32 block.right ++ mapBlocks f rest
  | rest => rest

/-- The number of bytes behind a header of the given size that are ciphered: those of the whole
words there, the last one left out if their number is odd. -/
def regionLength (datagram header : Nat) : Nat :=
  if datagram ≤ header then 0
  else
    let words := (datagram - header) / 4
    (words - words % 2) * 4

theorem regionLength_eq (datagram header : Nat) :
    regionLength datagram header = (datagram - header) / 8 * 8 := by
  rw [regionLength]
  split
  case isTrue h => rw [Nat.sub_eq_zero_of_le h]
  case isFalse => dsimp only; omega

/-- Applies a byte-string function to the ciphered region of a datagram. -/
def onRegion (f : Bytes → Bytes) (header : Nat) (datagram : Bytes) : Bytes :=
  let size := regionLength datagram.length header
  datagram.take header ++ f ((datagram.drop header).take size) ++ datagram.drop (header + size)

namespace Schedule

variable (schedule : Schedule)

/-- Encrypts the whole blocks of a byte string. -/
def encryptBlocks (data : Bytes) : Bytes := mapBlocks schedule.encrypt data

/-- Decrypts the whole blocks of a byte string. -/
def decryptBlocks (data : Bytes) : Bytes := mapBlocks schedule.decrypt data

/-- Encrypts a datagram behind its header. -/
def encryptPacket (header : Nat) (datagram : Bytes) : Bytes :=
  onRegion schedule.encryptBlocks header datagram

/-- Decrypts a datagram behind its header. -/
def decryptPacket (header : Nat) (datagram : Bytes) : Bytes :=
  onRegion schedule.decryptBlocks header datagram

end Schedule

/-- The schedule of a session key. -/
def Key.schedule (key : Key) : Schedule := Schedule.expand foldSigned key.scheduleHash

end Cipher

open Cipher in
/-- A session key with its schedule. -/
structure KeyedCipher where
  key : Key
  schedule : Schedule
  deriving DecidableEq

namespace KeyedCipher

open Cipher

/-- The cipher of a key. -/
def ofKey (key : Key) : KeyedCipher := ⟨key, key.schedule⟩

/-- The cipher of the next zone. -/
def incremented (cipher : KeyedCipher) : KeyedCipher := ofKey cipher.key.incremented

end KeyedCipher

end ZoneRelay
