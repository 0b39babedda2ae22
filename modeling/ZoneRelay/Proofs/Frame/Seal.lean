import ZoneRelay.Frame.Seal

/-!
# A seal holds

What is sealed behind a header passes the checks of a datagram: the digest holds, and the
stream is found again with its bit count, provided it has as many bytes as its bit count asks
for. All offsets are counted from the end, so the argument is the same at every length.

Both checks are said first for any sixteen bytes in the place of the digest
(`ZoneRelay.Frame.verifyChecksum_append`, `ZoneRelay.Frame.compressedRegion_append`): the digest is
not looked at when the stream is searched for.
-/

namespace ZoneRelay

namespace Bytes

/-- A 32-bit word in the middle of a byte string is read at its offset. -/
theorem u32At_append (front rest : Bytes) (w : UInt32) :
    u32At (front ++ (ofU32 w ++ rest)) front.length = w := by
  have hfirst := byteAt_append_right front (ofU32 w ++ rest) 0
  rw [Nat.add_zero] at hfirst
  rw [u32At, hfirst, byteAt_append_right, byteAt_append_right, byteAt_append_right]
  exact u32_ofU32 w

end Bytes

namespace Frame

theorem length_sealed (stream : Bytes) (bitCount : UInt32) :
    (sealed stream bitCount).length = stream.length + 20 := by
  simp [sealed]

/-- **The digest of a datagram is checked against its body**: what lies between the header and the
last sixteen bytes. -/
theorem verifyChecksum_append {front digest : Bytes} (hfront : front.length = headerSize)
    (hdigest : digest.length = checksumSize) (body : Bytes) :
    verifyChecksum (front ++ body ++ digest) = (Digest.md5 body == digest) := by
  have hsplit : (front ++ body ++ digest).length - checksumSize = (front ++ body).length := by
    rw [List.length_append, hdigest, Nat.add_sub_cancel]
  have hlong : headerSize + checksumSize ≤ (front ++ body ++ digest).length := by
    rw [List.length_append, List.length_append, hfront, hdigest]
    omega
  rw [verifyChecksum, decide_eq_true hlong, Bool.true_and, hsplit, List.take_left, List.drop_left,
    ← hfront, List.drop_left]

/-- **A digest holds** behind any header and what it is the digest of. -/
theorem verifyChecksum_append_md5 {front : Bytes} (hfront : front.length = headerSize)
    (body : Bytes) : verifyChecksum (front ++ body ++ Digest.md5 body) = true := by
  rw [verifyChecksum_append hfront (Digest.length_md5 body), beq_self_eq_true]

/-- **The digest of a seal holds** behind any header. -/
theorem verifyChecksum_sealed {front : Bytes} (hfront : front.length = headerSize)
    (stream : Bytes) (bitCount : UInt32) :
    verifyChecksum (front ++ sealed stream bitCount) = true := by
  rw [sealed, ← List.append_assoc]
  exact verifyChecksum_append_md5 hfront _

/-- **The stream is found by its distance from the end**, behind any header and whatever stands in
the place of the digest. It is given out if it has as many bytes as its bit count asks for. -/
theorem compressedRegion_append {front digest : Bytes} (hfront : front.length = headerSize)
    (hdigest : digest.length = checksumSize) (stream : Bytes) (bitCount : UInt32) :
    compressedRegion (front ++ (stream ++ Bytes.ofU32 bitCount) ++ digest) =
      if Bits.byteCount bitCount.toNat = stream.length then .ok (stream, bitCount)
      else .error (.corruptStream (.lengthMismatch bitCount.toNat stream.length)) := by
  have hassoc : front ++ (stream ++ Bytes.ofU32 bitCount) ++ digest =
      (front ++ stream) ++ (Bytes.ofU32 bitCount ++ digest) := by
    simp only [List.append_assoc]
  have hlength : ((front ++ stream) ++ (Bytes.ofU32 bitCount ++ digest)).length =
      (front ++ stream).length + (bitCountSize + checksumSize) := by
    simp only [List.length_append, Bytes.length_ofU32, hdigest, bitCountSize]
  have hlong : ¬ (front ++ stream).length + (bitCountSize + checksumSize) <
      headerSize + (bitCountSize + checksumSize) := by
    rw [List.length_append, hfront]
    omega
  rw [hassoc, compressedRegion, hlength, if_neg hlong, Nat.add_sub_cancel]
  simp only [Bytes.u32At_append, List.take_left, ← hfront, List.drop_left]

/-- **The stream of a seal is found again** behind any header. -/
theorem compressedRegion_sealed {front stream : Bytes} {bitCount : UInt32}
    (hfront : front.length = headerSize)
    (hstream : Bits.byteCount bitCount.toNat = stream.length) :
    compressedRegion (front ++ sealed stream bitCount) = .ok (stream, bitCount) := by
  rw [sealed, ← List.append_assoc, compressedRegion_append hfront (Digest.length_md5 _),
    if_pos hstream]

end Frame

end ZoneRelay
