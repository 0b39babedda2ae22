import ZoneRelay.Code.Bits
import ZoneRelay.Digest
import ZoneRelay.Frame.Header

/-!
# Sealing a datagram

Behind its header an encrypted datagram holds a compressed stream, the stream's bit count
in four bytes, and the MD5 digest of both. `ZoneRelay.Frame.sealed` writes the three;
`ZoneRelay.Frame.verifyChecksum` checks the digest and `ZoneRelay.Frame.compressedRegion`
finds the stream again, which has to have as many bytes as its bit count asks for.
-/

namespace ZoneRelay

namespace Frame

/-- A compressed stream with its bit count and the digest of both. -/
def sealed (compressed : Bytes) (bitCount : UInt32) : Bytes :=
  let counted := compressed ++ Bytes.ofU32 bitCount
  counted ++ Digest.md5 counted

/-- Whether a datagram ends with the digest of what lies between its header and that
digest. -/
def verifyChecksum (datagram : Bytes) : Bool :=
  let split := datagram.length - checksumSize
  headerSize + checksumSize ≤ datagram.length &&
    Digest.md5 ((datagram.take split).drop headerSize) == datagram.drop split

/-- The compressed stream of a datagram and its bit count. -/
def compressedRegion (datagram : Bytes) : Except Fault (Bytes × UInt32) :=
  let trailer := bitCountSize + checksumSize
  if datagram.length < headerSize + trailer then
    .error (.inputTruncated (headerSize + trailer) datagram.length)
  else
    let countAt := datagram.length - trailer
    let bitCount := Bytes.u32At datagram countAt
    let compressed := (datagram.take countAt).drop headerSize
    if Bits.byteCount bitCount.toNat = compressed.length then .ok (compressed, bitCount)
    else .error (.corruptStream (.lengthMismatch bitCount.toNat compressed.length))

end Frame

end ZoneRelay
