import ZoneRelay.Proofs.Cipher.Inverse
import ZoneRelay.Proofs.Code.Stream
import ZoneRelay.Proofs.Frame.Framing
import ZoneRelay.Proofs.Frame.Seal
import ZoneRelay.Session.Inbound

/-!
# The client's side

The client takes the relay's datagrams apart and makes its own. It **reads** a datagram under
the key it has (`ZoneRelay.Client.read`): decipher, check the digest, find the stream,
decompress it, and take the region apart; and after a datagram with a zone packet it goes on
to the next key (`ZoneRelay.Client.listen`). It **writes** its frames and a zero byte behind
them the same way back (`ZoneRelay.Client.datagram`).

Both sides agree on what a clear datagram looks like. **It carries a region** under a header
(`ZoneRelay.Client.Carries`) when behind the header the seal of a stream stands that
compressing the region gave. Whoever opens such a datagram finds the header and the region
again, the relay (`ZoneRelay.Client.Carries.openRegion_eq`) as well as the client
(`ZoneRelay.Client.Carries.read_encryptPacket`), as long as the region fits into the 4096
bytes they have for it.
-/

namespace ZoneRelay

namespace Client

open ZoneRelay.Frame ZoneRelay.Session

/-! ### Reading and writing -/

/-- What the client reads in a datagram. -/
structure Reading where
  header : Header
  /-- The decompressed frames. -/
  region : Bytes
  packets : List SubPacket
  ending : Ending
  deriving DecidableEq

/-- A header and a region taken apart. -/
def Reading.of (header : Header) (region : Bytes) : Reading :=
  ⟨header, region, (demux region).1.map (·.toSubPacket), (demux region).2⟩

/-- Reads a datagram under a key. -/
def read (book : Code.Book) (key : Cipher.Key) (datagram : Bytes) : Except Fault Reading :=
  let clear := key.schedule.decryptPacket headerSize datagram
  if verifyChecksum clear then do
    let header ← Header.ofDatagram clear
    let (stream, bitCount) ← compressedRegion clear
    let (size, buffer) := book.decompress stream bitCount (Bytes.zeros maxDatagramSize)
    let size ← size
    return .of header (buffer.take size)
  else .error .decryptionFailure

/-- The client's key after a datagram: the next one if there was a zone packet in it. -/
def nextKey (key : Cipher.Key) : Except Fault Reading → Cipher.Key
  | .ok reading => if reading.packets.any (·.kind == zoneType) then key.incremented else key
  | .error _ => key

/-- Reads datagrams in the order they come, each under the key the client has by then. -/
def listen (book : Code.Book) : Cipher.Key → List Bytes → List (Except Fault Reading)
  | _, [] => []
  | key, datagram :: rest =>
    read book key datagram :: listen book (nextKey key (read book key datagram)) rest

/-- The client's key behind a number of datagrams. -/
def keyAfter (book : Code.Book) (key : Cipher.Key) (datagrams : List Bytes) : Cipher.Key :=
  datagrams.foldl (fun key datagram => nextKey key (read book key datagram)) key

/-- The client's datagram with the given sub-packets, each under its own sequence number. -/
def datagram (book : Code.Book) (cipher : KeyedCipher) (header : Header)
    (packets : List SubPacket) : Except Fault Bytes :=
  (book.compressed (region packets ++ [0])).map fun compressed =>
    cipher.schedule.encryptPacket headerSize
      (header.toBytes ++ sealed compressed.2 compressed.1)

/-! ### What a clear datagram carries -/

/-- **A clear datagram carries a region under a header**: behind the header stands the seal of
a stream that compressing the region gave. The bit count of the stream fits into its field. -/
def Carries (book : Code.Book) (header : Header) (region clear : Bytes) : Prop :=
  ∃ buffer bitCount stream, book.compress region buffer = (.ok bitCount, stream) ∧
    (book.encoder.encode region).length + 8 < 2 ^ 32 ∧
    clear = header.toBytes ++ sealed (stream.take (Bits.byteCount bitCount.toNat)) bitCount

namespace Carries

variable {book : Code.Book} {header : Header} {region clear : Bytes}

/-- Its digest holds. -/
theorem verifyChecksum_eq (h : Carries book header region clear) :
    verifyChecksum clear = true := by
  obtain ⟨buffer, bitCount, stream, -, -, rfl⟩ := h
  exact verifyChecksum_sealed header.length_toBytes _ bitCount

/-- Its header is read back. -/
theorem ofDatagram_eq (h : Carries book header region clear) :
    Header.ofDatagram clear = .ok header := by
  obtain ⟨buffer, bitCount, stream, -, -, rfl⟩ := h
  exact header.ofDatagram_append _

/-- **Its stream is found and decompressed** into the region, and nothing behind it. -/
theorem decompress_eq (h : Carries book header region clear) (hbook : book.Faithful)
    {output : Bytes} (hroom : region.length ≤ output.length) :
    ∃ stream bitCount, compressedRegion clear = .ok (stream, bitCount) ∧
      book.decompress stream bitCount output =
        (.ok region.length, region ++ output.drop region.length) := by
  obtain ⟨buffer, bitCount, stream, hwrite, hsmall, rfl⟩ := h
  refine ⟨_, bitCount, compressedRegion_sealed header.length_toBytes ?_,
    hbook.decompress_all hsmall hwrite hroom⟩
  exact (Code.Book.length_take_compress hsmall hwrite).symm

/-- It is long enough to be looked at. -/
theorem le_length (h : Carries book header region clear) : 45 ≤ clear.length := by
  obtain ⟨buffer, bitCount, stream, hwrite, hsmall, rfl⟩ := h
  obtain ⟨first, body, -, -, hcount, -⟩ := book.compress_eq_ok hwrite
  have hbytes := Code.Book.length_take_compress hsmall hwrite
  rw [hcount, Code.toNat_bitCount hsmall, Bits.byteCount] at hbytes
  rw [List.length_append, header.length_toBytes, length_sealed, hcount,
    Code.toNat_bitCount hsmall, Bits.byteCount]
  omega

/-- **The relay finds header and region again** in a buffer of a pool. -/
theorem openRegion_eq (h : Carries book header region clear) (hbook : book.Faithful)
    {pool : BufferPool} (hroom : region.length ≤ pool.size) :
    (openRegion book pool clear).1 = .ok (header, region) := by
  have hscratch : region.length ≤ pool.acquire.1.length := by
    rw [pool.acquire_fst, Bytes.length_zeros]
    exact hroom
  obtain ⟨stream, bitCount, hstream, hread⟩ := h.decompress_eq hbook hscratch
  rw [openRegion, h.ofDatagram_eq, hstream]
  simp only [unpack, hread, Except.map, List.take_left]

/-- **The client reads header and region** under the key they were enciphered with. -/
theorem read_encryptPacket (h : Carries book header region clear) (hbook : book.Faithful)
    (hroom : region.length ≤ maxDatagramSize) (key : Cipher.Key) :
    read book key (key.schedule.encryptPacket headerSize clear) =
      .ok (.of header region) := by
  have hzeros : region.length ≤ (Bytes.zeros maxDatagramSize).length := by
    rw [Bytes.length_zeros]
    exact hroom
  obtain ⟨stream, bitCount, hstream, hread⟩ := h.decompress_eq hbook hzeros
  rw [read, key.schedule.decryptPacket_encryptPacket]
  simp only [h.verifyChecksum_eq, if_true, h.ofDatagram_eq, hstream, bind, Except.bind, hread,
    List.take_left, pure, Except.pure]

end Carries

/-- The codes of a region of a datagram are few enough to be counted in its field. -/
theorem encode_small {book : Code.Book} (hcodes : ∀ b, (book.encoder.entry b).bits ≤ 32)
    {region : Bytes} (h : region.length ≤ maxDatagramSize) :
    (book.encoder.encode region).length + 8 < 2 ^ 32 := by
  have hlength := Code.Encoder.length_encode_le hcodes region
  rw [maxDatagramSize] at h
  omega

/-- **The client's datagram carries its frames** and a zero byte, enciphered. -/
theorem datagram_eq {book : Code.Book} (cipher : KeyedCipher) (header : Header)
    {packets : List SubPacket}
    (hsmall : (book.encoder.encode (region packets ++ [0])).length + 8 < 2 ^ 32) :
    ∃ clear, Carries book header (region packets ++ [0]) clear ∧
      datagram book cipher header packets =
        .ok (cipher.schedule.encryptPacket headerSize clear) := by
  obtain ⟨bitCount, stream, hwrite, hcompressed⟩ := book.compressed_eq (region packets ++ [0])
  refine ⟨_, ⟨_, bitCount, stream, hwrite, hsmall, rfl⟩, ?_⟩
  rw [datagram, hcompressed]
  rfl

end Client

end ZoneRelay
