import ZoneRelay.Digest
import ZoneRelay.Text.Utf8

/-!
# Session keys

A session key is twenty bytes, or five little-endian words. It is handed out as a text:
the key of a text is its UTF-8 form, cut after twenty bytes and filled up with zeros; the
text of a key leaves out the zeros at its end. At every change of zone the last word of
the key grows by two, modulo `2 ^ 32`.

The cipher does not take the key itself but a hash of it: the MD5 digest of its bytes, in
which everything from the first zero byte on is zeroed.
-/

namespace ZoneRelay

namespace Cipher

/-- A session key. -/
structure Key where
  bytes : Vector UInt8 20
  deriving DecidableEq

namespace Key

/-- The key of a byte string, cut or filled up with zeros to twenty bytes. -/
def ofBytes (data : Bytes) : Key := ⟨Vector.ofFn fun i => data.getD i 0⟩

/-- The key of a text. -/
def ofText (text : String) : Key := ofBytes (Utf8.encode text)

/-- The bytes of a key. -/
def toBytes (key : Key) : Bytes := key.bytes.toList

/-- The text of a key, without the zeros at its end. -/
def toText (key : Key) : String :=
  Utf8.decodeLossy (key.toBytes.reverse.dropWhile (· == 0)).reverse

/-- The five words of a key. -/
def words (key : Key) : Vector UInt32 5 := Vector.ofFn fun i => Bytes.u32At key.toBytes (4 * i)

/-- The key with the given words. -/
def ofWords (words : Vector UInt32 5) : Key := ofBytes (Bytes.ofWords words.toList)

theorem toBytes_ofBytes {data : Bytes} (h : data.length = 20) : (ofBytes data).toBytes = data := by
  refine List.ext_getElem (by simp [toBytes, ofBytes, h]) fun i _ hi => ?_
  simp [toBytes, ofBytes, hi]

/-- A key has the words it was made from. -/
@[simp] theorem words_ofWords (words : Vector UInt32 5) : (ofWords words).words = words := by
  refine Vector.ext fun i hi => ?_
  have hlist : i < words.toList.length := by rwa [Vector.length_toList]
  rw [Key.words, Vector.getElem_ofFn, ofWords, toBytes_ofBytes (by simp),
    Bytes.u32At_ofWords hlist, Vector.getElem_toList]

/-- The key after a change of zone: its last word grows by two. -/
def incremented (key : Key) : Key :=
  let words := key.words
  ofWords (words.set 4 (getElem words 4 (by decide) + 2) (by decide))

@[simp] theorem words_incremented (key : Key) :
    key.incremented.words =
      key.words.set 4 (getElem key.words 4 (by decide) + 2) (by decide) :=
  words_ofWords _

/-- The digest of the key, zeroed from its first zero byte on. -/
def scheduleHash (key : Key) : Bytes :=
  let digest := Digest.md5 key.toBytes
  let kept := digest.takeWhile (· != 0)
  kept ++ Bytes.zeros (digest.length - kept.length)

/-- The key with `delta` added to the byte at `index`; none changes outside the key. -/
def addAt (key : Key) (index : Nat) (delta : UInt8) : Key :=
  if h : index < 20 then ⟨key.bytes.set index (key.bytes[index] + delta)⟩ else key

end Key

end Cipher

end ZoneRelay
