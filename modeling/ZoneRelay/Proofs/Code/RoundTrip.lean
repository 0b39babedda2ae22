import ZoneRelay.Proofs.Code.Layout

/-!
# Compressing and decompressing

The main statement on codes (`ZoneRelay.Code.round_trip`): the resources made from any code
lengths load into a faithful book, and with a faithful book whatever is compressed into a
buffer is decompressed again, up to the room for it. What the buffers held before plays no
part.
-/

namespace ZoneRelay

namespace Code

/-- **The round trip.** The resources of any code lengths – the standard ones, or any vector
that passes the check – load into a book whose encoder and trie fit. And with any book whose
encoder and trie fit, of a byte string that was compressed into a buffer, decompressing gives
as many bytes as the output has room for, and no more: the first ones of the byte string, with
the rest of the output as it was. The bit count has to fit into its 32 bits. -/
theorem round_trip :
    (∀ lengths : Lengths, ∃ book, lengths.book = .ok book ∧
      book.encoder = lengths.encoder ∧ book.Faithful) ∧
    ∀ book : Book, book.Faithful →
      ∀ (input buffer stream output : Bytes) (bitCount : UInt32),
        (book.encoder.encode input).length + 8 < 2 ^ 32 →
        book.compress input buffer = (.ok bitCount, stream) →
        book.decompress (stream.take (Bits.byteCount bitCount.toNat)) bitCount output =
          (.ok (min output.length input.length),
            input.take output.length ++ output.drop (min output.length input.length)) :=
  ⟨fun lengths => lengths.exists_book,
    fun _ h _ _ _ output _ hsmall hwrite => h.decompress_compress hsmall hwrite output⟩

/-- With the standard lengths, three bytes of fifteen bits compressed into a buffer of ones. -/
theorem round_trip_standard : ∃ book, Lengths.standard.book = .ok book ∧
    (book.encoder.encode [0x20, 0x41, 0x00]).length + 8 < 2 ^ 32 ∧
    book.compress [0x20, 0x41, 0x00] [0xFF, 0xFF, 0xFF, 0xFF] =
      (.ok 23, [1, 0xCC, 0x8F, 0xFF]) ∧
    book.decompress [1, 0xCC, 0x8F] 23 [7, 7] = (.ok 2, [0x20, 0x41]) := by
  obtain ⟨book, hbook, hencoder, hfaithful⟩ := round_trip.1 Lengths.standard
  have hsmall : (book.encoder.encode [0x20, 0x41, 0x00]).length + 8 < 2 ^ 32 := by
    rw [hencoder]
    simp only [Encoder.encode_cons, Encoder.encode_nil, Lengths.entry_encoder]
    decide +kernel
  have hwrite : book.compress [0x20, 0x41, 0x00] [0xFF, 0xFF, 0xFF, 0xFF] =
      (.ok 23, [1, 0xCC, 0x8F, 0xFF]) := by
    rw [Book.compress, hencoder]
    simp only [Encoder.write, Lengths.entry_encoder]
    decide +kernel
  exact ⟨book, hbook, hsmall, hwrite,
    round_trip.2 book hfaithful _ _ _ [7, 7] _ hsmall hwrite⟩

end Code

end ZoneRelay
