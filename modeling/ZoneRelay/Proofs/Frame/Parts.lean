import ZoneRelay.Proofs.Cipher.Inverse
import ZoneRelay.Proofs.Frame.Seal

/-!
# The parts of a datagram

A datagram is made in four steps, and taken apart in the same four backwards.

| making a datagram | taking it apart | the two together |
|---|---|---|
| write the header | read it | the header |
| put the stream and its bit count behind it | find the stream | both, if they fit together |
| put the digest behind that | check it | it holds |
| encipher all but the header | decipher | the same bytes |

What was sealed is opened again, whatever the header, the stream and the cipher. Only the bit count
can be wrong: any number can be written, but **a stream that has more or fewer bytes than its bit
count asks for is refused**.

The other way round, bytes that were opened had been sealed. A datagram with room for a header, a
bit count and a digest is made of these three and of a stream in the middle
(`ZoneRelay.Frame.exists_parts`). If the stream is given out and the digest holds, nothing is left
open behind the header, so the two checks accept the seals and nothing else
(`ZoneRelay.Frame.opened_iff_sealed`). The header is not part of what the digest is taken of: the
same seal stands behind any other.
-/

namespace ZoneRelay

namespace Frame

/-- A datagram that is long enough is a header, a stream, a bit count and a digest. -/
theorem exists_parts {datagram : Bytes}
    (h : headerSize + (bitCountSize + checksumSize) ≤ datagram.length) :
    ∃ (front stream : Bytes) (bitCount : UInt32) (digest : Bytes),
      datagram = front ++ (stream ++ Bytes.ofU32 bitCount) ++ digest ∧
        front.length = headerSize ∧ digest.length = checksumSize := by
  simp only [headerSize, bitCountSize, checksumSize] at h ⊢
  let body := datagram.drop 28
  let trailer := body.drop (datagram.length - 48)
  have htrailer : trailer.length = 20 := by
    rw [List.length_drop, List.length_drop]
    omega
  have hdatagram : datagram = datagram.take 28 ++ body.take (datagram.length - 48) ++ trailer := by
    rw [List.append_assoc, List.take_append_drop, List.take_append_drop]
  obtain ⟨a, b, c, d, digest, hbytes, hdigest⟩ :
      ∃ a b c d digest, trailer = a :: b :: c :: d :: digest ∧ digest.length = 16 := by
    generalize trailer = bytes at htrailer
    rcases bytes with _ | ⟨a, _ | ⟨b, _ | ⟨c, _ | ⟨d, digest⟩⟩⟩⟩
    case cons.cons.cons.cons => exact ⟨a, b, c, d, digest, rfl, by simpa using htrailer⟩
    all_goals simp at htrailer
  refine ⟨datagram.take 28, body.take (datagram.length - 48), Bytes.u32 a b c d, digest, ?_,
    List.length_take_of_le (by omega), hdigest⟩
  rw [Bytes.ofU32_u32, List.append_assoc, List.append_assoc]
  rw [List.append_assoc, hbytes] at hdatagram
  exact hdatagram

/-- **The two checks accept what was sealed**, behind any header, and nothing else. -/
theorem opened_iff_sealed (datagram stream : Bytes) (bitCount : UInt32) :
    verifyChecksum datagram = true ∧ compressedRegion datagram = .ok (stream, bitCount) ↔
      headerSize ≤ datagram.length ∧ Bits.byteCount bitCount.toNat = stream.length ∧
        datagram.take headerSize ++ sealed stream bitCount = datagram := by
  constructor
  · rintro ⟨hverify, hregion⟩
    have hlong : headerSize + (bitCountSize + checksumSize) ≤ datagram.length := by
      refine Nat.le_of_not_lt fun hshort => ?_
      rw [compressedRegion, if_pos hshort] at hregion
      cases hregion
    obtain ⟨front, found, count, digest, rfl, hfront, hdigest⟩ := exists_parts hlong
    rw [compressedRegion_append hfront hdigest] at hregion
    rw [verifyChecksum_append hfront hdigest, beq_iff_eq] at hverify
    split at hregion
    · rename_i hcount
      cases hregion
      refine ⟨by omega, hcount, ?_⟩
      rw [List.append_assoc, ← hfront, List.take_left, sealed, hverify]
    · cases hregion
  · rintro ⟨hlong, hcount, heq⟩
    have hfront : (datagram.take headerSize).length = headerSize := List.length_take_of_le hlong
    have hverify := verifyChecksum_sealed hfront stream bitCount
    have hregion := compressedRegion_sealed hfront hcount
    rw [heq] at hverify hregion
    exact ⟨hverify, hregion⟩

/-- A header is read in the clear, also from an enciphered datagram. -/
theorem ofDatagram_encryptPacket (schedule : Cipher.Schedule) (header : Header) (rest : Bytes) :
    Header.ofDatagram (schedule.encryptPacket headerSize (header.toBytes ++ rest)) =
      .ok header := by
  have hlong : headerSize ≤ (header.toBytes ++ rest).length := by
    rw [List.length_append, header.length_toBytes, headerSize]
    omega
  have htake : (schedule.encryptPacket headerSize (header.toBytes ++ rest)).take headerSize =
      header.toBytes := by
    rw [Cipher.Schedule.encryptPacket, Cipher.take_onRegion _ hlong]
    exact List.take_left' header.length_toBytes
  rw [← List.take_append_drop headerSize (schedule.encryptPacket _ _), htake]
  exact header.ofDatagram_append _

/-- **Sealing and opening a datagram are inverse.**

* Take any header, any stream, any bit count and any cipher, write the header and seal the stream
  behind it. Deciphering what was enciphered behind the header gives the same bytes; the header is
  read from them, and already from the enciphered ones; and the digest holds. The stream is found
  with its bit count if it has as many bytes as that many bits take, the last byte filled up or not;
  if it has not, the datagram is refused as corrupt, for that reason.
* Conversely, if the digest of a datagram holds and a stream is found in it, then sealing this
  stream with its bit count behind the header of the datagram gives the datagram. -/
theorem sealing_inverse :
    (∀ (header : Header) (stream : Bytes) (bitCount : UInt32) (schedule : Cipher.Schedule),
      let clear := header.toBytes ++ sealed stream bitCount
      let enciphered := schedule.encryptPacket headerSize clear
      schedule.decryptPacket headerSize enciphered = clear ∧
        Header.ofDatagram clear = .ok header ∧ Header.ofDatagram enciphered = .ok header ∧
        verifyChecksum clear = true ∧
        compressedRegion clear =
          if Bits.byteCount bitCount.toNat = stream.length then .ok (stream, bitCount)
          else .error (.corruptStream (.lengthMismatch bitCount.toNat stream.length))) ∧
    ∀ (datagram stream : Bytes) (bitCount : UInt32),
      verifyChecksum datagram = true ∧ compressedRegion datagram = .ok (stream, bitCount) ↔
        headerSize ≤ datagram.length ∧ Bits.byteCount bitCount.toNat = stream.length ∧
          datagram.take headerSize ++ sealed stream bitCount = datagram := by
  refine ⟨?_, opened_iff_sealed⟩
  intro header stream bitCount schedule
  refine ⟨schedule.decryptPacket_encryptPacket headerSize _, header.ofDatagram_append _,
    ofDatagram_encryptPacket schedule header _,
    verifyChecksum_sealed header.length_toBytes stream bitCount, ?_⟩
  rw [sealed, ← List.append_assoc]
  exact compressedRegion_append header.length_toBytes (Digest.length_md5 _) stream bitCount

end Frame

end ZoneRelay
