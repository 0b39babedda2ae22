import Mathlib.Order.Bounds.Basic
import ZoneRelay.Proofs.Code.Layout
import ZoneRelay.Proofs.Session.Packing

/-!
# As many as fit

Packing has two limits besides the number of sub-packets that a datagram may hold: header and
frames stay below 4096 bytes, and the codes of the frames and of a zero byte stay below the
`8 * 4047` bits that the stream can use. Neither the frames nor the codes of the first sub-packets
grow when there are fewer of them, but packing does not search for the best number. It frames as
far as the first limit goes, compresses, and starts again with one sub-packet less when the second
limit is missed.

**It finds the largest number all the same** (`ZoneRelay.Session.packs_greatest`).

| one attempt with the first `n` | | theorem |
|---|---|---|
| gives a datagram | of the largest number up to `n` that fits | `isGreatest_of_build` |
| lacks room | and `n` itself does not fit | `not_mem_of_build` |
| meets an oversized sub-packet | and so does every larger attempt | `build_error` |

So an attempt that lacks room rules out no number but its own, and the next one is one below. It
does not go on below one: 508 bytes and a zero byte are `509 * 32` bits at most, which is half
of the room. The fault that is left is that of a sub-packet too large for a frame, which changes
nothing.
-/

namespace ZoneRelay

namespace Session

open ZoneRelay.Frame

/-! ### Lengths -/

/-- The length of the codes of a byte string, one after another, in bits. -/
def codeLength (book : Code.Book) (data : Bytes) : Nat :=
  (data.map fun b => (book.encoder.entry b).bits).sum

theorem length_encode (book : Code.Book) (data : Bytes) :
    (book.encoder.encode data).length = codeLength book data := by
  induction data with
  | nil => rfl
  | cons b rest ih =>
    rw [Code.Encoder.encode_cons, List.length_append, Code.Entry.length_word, ih, codeLength,
      codeLength, List.map_cons, List.sum_cons]

/-- **The numbers of sub-packets that fit into one datagram**, from the front of those that wait
and at most `limit` of them: header and frames stay below 4096 bytes, and the codes of the frames
and of a zero byte below `8 * 4047` bits. -/
def fitting (book : Code.Book) (sequence : UInt16) (limit : Nat) (waiting : List SubPacket) :
    Set Nat :=
  {count | count ≤ min limit waiting.length ∧
    headerSize + framedLength (waiting.take count) < maxDatagramSize ∧
    codeLength book (region (leading sequence waiting count) ++ [0]) < 8 * (maxStreamSize - 1)}

theorem mem_fitting {book : Code.Book} {sequence : UInt16} {limit count : Nat}
    {waiting : List SubPacket} : count ∈ fitting book sequence limit waiting ↔
      count ≤ min limit waiting.length ∧
        headerSize + framedLength (waiting.take count) < maxDatagramSize ∧
        codeLength book (region (leading sequence waiting count) ++ [0]) <
          8 * (maxStreamSize - 1) :=
  Iff.rfl

/-! ### Encoding -/

/-- **A region is encoded exactly if its codes fit**; else the room is what is lacking. -/
theorem encodeRegion_iff (book : Code.Book) (session : Session) (timestamp : UInt32)
    (frames : Bytes) :
    (∃ bytes, encodeRegion book session timestamp (frames ++ [0]) = .ok bytes) ↔
      codeLength book (frames ++ [0]) < 8 * (maxStreamSize - 1) := by
  have hzeros : Bytes.zeros maxStreamSize = 0 :: Bytes.zeros (maxStreamSize - 1) := rfl
  rw [← length_encode]
  constructor
  · rintro ⟨bytes, hok⟩
    rcases hover : (book.encoder.write (8 * (Bytes.zeros (maxStreamSize - 1)).length) 0
      (frames ++ [0])).overflow with _ | needed
    · obtain ⟨-, hempty | hlt⟩ := Code.Encoder.write_overflow_none hover
      · exact absurd hempty (List.concat_ne_nil _ _)
      · rwa [Bytes.length_zeros, Nat.zero_add] at hlt
    · rw [encodeRegion, hzeros, Code.Book.compress] at hok
      simp only [hover] at hok
      cases hok
  · intro hlt
    have hroom : (book.encoder.encode (frames ++ [0])).length <
        8 * (Bytes.zeros (maxStreamSize - 1)).length := by
      rwa [Bytes.length_zeros]
    exact ⟨_, by rw [encodeRegion, hzeros, Code.Book.compress_eq_of_lt 0 hroom]⟩

/-! ### One attempt -/

/-- **An attempt that gives a datagram** has packed the largest number that fits. -/
theorem isGreatest_of_build {book : Code.Book} {session : Session} {timestamp : UInt32}
    {waiting : List SubPacket} {bytes : Bytes} {count : Nat}
    (h : build book session timestamp waiting = .ok (bytes, count)) :
    IsGreatest (fitting book session.serverSequence waiting.length waiting) count := by
  rcases build_eq_map book session timestamp waiting with
    ⟨packet, -, -, hbuild⟩ | ⟨framed, count', hframed, hbuild⟩
  · rw [hbuild] at h
    cases h
  · rcases hencode : encodeRegion book session timestamp (framed ++ [0]) with fault | bytes'
    · rw [hbuild, hencode] at h
      cases h
    · rw [hbuild, hencode] at h
      cases h
      have hregion := hframed.framed_eq
      rw [List.nil_append] at hregion
      constructor
      · refine ⟨by rw [Nat.min_self]; exact hframed.count_le, ?_, ?_⟩
        · rw [← length_region_leading session.serverSequence, ← hregion]
          exact hframed.below (by decide)
        · rw [← hregion]
          exact (encodeRegion_iff book session timestamp framed).mp ⟨bytes, hencode⟩
      · rintro more ⟨hle, hroom, -⟩
        exact hframed.le_count (Nat.le_trans hle (Nat.min_le_right _ _)) hroom

/-- **An attempt that lacks room** was one with too many sub-packets. -/
theorem not_mem_of_build {book : Code.Book} {session : Session} {timestamp : UInt32}
    {waiting : List SubPacket} {needed available : Nat}
    (h : build book session timestamp waiting = .error (.capacityExceeded needed available)) :
    waiting.length ∉ fitting book session.serverSequence waiting.length waiting := by
  rintro ⟨-, hroom, hcode⟩
  rcases build_eq_map book session timestamp waiting with
    ⟨packet, -, -, hbuild⟩ | ⟨framed, count, hframed, hbuild⟩
  · rw [hbuild] at h
    cases h
  · -- all of them could be framed, so it is their codes that would have to be too long
    obtain rfl : count = waiting.length :=
      Nat.le_antisymm hframed.count_le (hframed.le_count (Nat.le_refl _) hroom)
    have hregion := hframed.framed_eq
    rw [List.nil_append] at hregion
    rw [← hregion] at hcode
    obtain ⟨bytes, hok⟩ := (encodeRegion_iff book session timestamp framed).mpr hcode
    rw [hbuild, hok] at h
    cases h

/-- **An attempt that fails** has met a sub-packet that is too large, or lacks room for more than
one sub-packet, with codes of at most 32 bits. -/
theorem build_error {book : Code.Book} (hcodes : ∀ b, (book.encoder.entry b).bits ≤ 32)
    {session : Session} {timestamp : UInt32} {waiting : List SubPacket} {fault : Fault}
    (h : build book session timestamp waiting = .error fault) :
    (∃ packet ∈ waiting, maxFrameSize < packet.frameLength ∧
      fault = .oversizedPacket packet.payload.length) ∨
    (1 < waiting.length ∧ ∃ needed available, fault = .capacityExceeded needed available) := by
  rcases build_cases hcodes session timestamp waiting with
    ⟨packet, hmem, hlarge, hbuild⟩ | ⟨hlong, needed, available, hbuild⟩ | ⟨clear, count, -, -, hbuild⟩
  · rw [hbuild] at h
    exact Or.inl ⟨packet, hmem, hlarge, (Except.error.inj h).symm⟩
  · rw [hbuild] at h
    exact Or.inr ⟨hlong, needed, available, (Except.error.inj h).symm⟩
  · rw [hbuild] at h
    cases h

/-! ### Fewer and fewer -/

/-- What fits of the first sub-packets is what fits of all of them, up to that number. -/
theorem fitting_take (book : Code.Book) (sequence : UInt16) (limit : Nat)
    (waiting : List SubPacket) :
    fitting book sequence (waiting.take limit).length (waiting.take limit) =
      fitting book sequence limit waiting := by
  ext count
  have hleading : count ≤ limit →
      leading sequence (waiting.take limit) count = leading sequence waiting count ∧
        (waiting.take limit).take count = waiting.take count := by
    intro hle
    have htake : (waiting.take limit).take count = waiting.take count := by
      rw [List.take_take, Nat.min_eq_left hle]
    exact ⟨by rw [leading, leading, htake], htake⟩
  rw [mem_fitting, mem_fitting, Nat.min_self, List.length_take]
  refine and_congr_right fun hle => ?_
  obtain ⟨hsame, htake⟩ := hleading (Nat.le_trans hle (Nat.min_le_left _ _))
  rw [hsame, htake]

/-- **Trying fewer and fewer finds the largest number that fits**, where it finds one. -/
theorem isGreatest_of_buildUpTo {book : Code.Book} {session : Session} {timestamp : UInt32}
    {waiting : List SubPacket} {limit : Nat} (hlimit : limit ≤ waiting.length) {bytes : Bytes}
    {count : Nat} (h : buildUpTo book session timestamp waiting limit = .ok (bytes, count)) :
    IsGreatest (fitting book session.serverSequence limit waiting) count := by
  induction limit with
  | zero =>
    have hbuild : build book session timestamp (waiting.take 0) = .ok (bytes, count) := h
    have hgreatest := isGreatest_of_build hbuild
    rwa [fitting_take] at hgreatest
  | succ limit ih =>
    rw [buildUpTo] at h
    split at h
    · rename_i needed available hbuild
      split at h
      · cases h
      · obtain ⟨hmem, hgreatest⟩ := ih (Nat.le_of_succ_le hlimit) h
        have hnot := not_mem_of_build hbuild
        rw [fitting_take, List.length_take, Nat.min_eq_left hlimit] at hnot
        have hmono : fitting book session.serverSequence limit waiting ⊆
            fitting book session.serverSequence (limit + 1) waiting := by
          rintro count ⟨hle, hfits⟩
          exact ⟨Nat.le_trans hle (by omega), hfits⟩
        refine ⟨hmono hmem, ?_⟩
        rintro more ⟨hle, hfits⟩
        -- the number that was just tried is ruled out
        have hne : more ≠ limit + 1 := by
          rintro rfl
          exact hnot ⟨hle, hfits⟩
        exact hgreatest ⟨by omega, hfits⟩
    · have hgreatest := isGreatest_of_build h
      rwa [fitting_take] at hgreatest

/-- **Trying fewer and fewer fails at a sub-packet that is too large**, and at nothing else. -/
theorem buildUpTo_error {book : Code.Book} (hcodes : ∀ b, (book.encoder.entry b).bits ≤ 32)
    {session : Session} {timestamp : UInt32} {waiting : List SubPacket} {limit : Nat}
    {fault : Fault} (h : buildUpTo book session timestamp waiting limit = .error fault) :
    ∃ packet ∈ waiting, maxFrameSize < packet.frameLength ∧
      fault = .oversizedPacket packet.payload.length := by
  induction limit with
  | zero =>
    rcases build_error hcodes h with ⟨packet, hmem, -⟩ | ⟨hlong, -⟩
    · cases hmem
    · exact absurd hlong (by decide)
  | succ limit ih =>
    rw [buildUpTo] at h
    split at h
    · rename_i needed available hbuild
      split at h
      · -- a single sub-packet does not lack room
        rename_i hzero
        rcases build_error hcodes hbuild with ⟨packet, -, -, hfault⟩ | ⟨hlong, -⟩
        · cases hfault
        · rw [List.length_take, hzero] at hlong
          omega
      · exact ih h
    · rename_i hnot
      rcases build_error hcodes h with ⟨packet, hmem, hlarge, hfault⟩ | ⟨-, needed, available, hfault⟩
      · exact ⟨packet, List.mem_of_mem_take hmem, hlarge, hfault⟩
      · exact absurd (hfault ▸ h) (hnot needed available)

/-- No more fit than there are. -/
theorem fitting_min (book : Code.Book) (sequence : UInt16) (limit : Nat)
    (waiting : List SubPacket) :
    fitting book sequence (min waiting.length limit) waiting =
      fitting book sequence limit waiting := by
  ext count
  rw [mem_fitting, mem_fitting, Nat.min_comm waiting.length, Nat.min_assoc, Nat.min_self]

/-! ### The main statement -/

/-- **As many as fit are packed.** Take the code book of any two tables, any limit, any session
and any sub-packets that wait.

* If each of them fits into a frame, packing gives a datagram with the largest number of them
  that fits, and with at least one if there is one and the limit is not zero.
* Whenever packing gives a datagram, the relay's number grows by one, the resend slot holds the
  datagram under the number before, and the client's number stays.
* Whenever packing fails, it is for a sub-packet that is too large for a frame, and the session
  stays as it is. -/
theorem packs_greatest {book : Code.Book} (hloaded : book.Loaded) (limit : Nat)
    (session : Session) (timestamp : UInt32) (waiting : List SubPacket) :
    ((∀ packet ∈ waiting, packet.frameLength ≤ maxFrameSize) →
      ∃ datagram after, session.assemble book limit timestamp waiting = (.ok datagram, after) ∧
        IsGreatest (fitting book session.serverSequence limit waiting) datagram.consumed ∧
        (waiting ≠ [] → 0 < limit → 1 ≤ datagram.consumed)) ∧
      (∀ datagram after, session.assemble book limit timestamp waiting = (.ok datagram, after) →
        after.serverSequence = session.serverSequence + 1 ∧
          after.lastSent = some ⟨session.serverSequence, datagram.bytes⟩ ∧
          after.clientSequence = session.clientSequence) ∧
      ∀ fault after, session.assemble book limit timestamp waiting = (.error fault, after) →
        after = session ∧ ∃ packet ∈ waiting, maxFrameSize < packet.frameLength ∧
          fault = .oversizedPacket packet.payload.length := by
  refine ⟨fun hshort => ?_, fun datagram after h => ?_, fun fault after h => ?_⟩
  · obtain ⟨clear, count, -, -, hpos, hbuild⟩ :=
      buildUpTo_eq hloaded.bits_le session timestamp hshort (min waiting.length limit)
    have hgreatest := isGreatest_of_buildUpTo (Nat.min_le_left _ _) hbuild
    rw [fitting_min] at hgreatest
    refine ⟨_, _, by rw [assemble, hbuild], hgreatest, fun hne hlimit => ?_⟩
    have hsome : 0 < min waiting.length limit :=
      Nat.lt_min.mpr ⟨List.length_pos_iff.mpr hne, hlimit⟩
    exact hpos hne hsome
  · rcases session.assemble_cases book limit timestamp waiting with
      ⟨fault, hfault⟩ | ⟨bytes, count, zone, -, -, hok⟩
    · rw [hfault] at h
      cases h
    · rw [hok, Prod.mk.injEq, Except.ok.injEq] at h
      obtain ⟨rfl, rfl⟩ := h
      -- the change of key behind a zone packet touches neither numbers nor slot
      split
      · rw [rotateKey, recordSent]
        exact ⟨rfl, rfl, rfl⟩
      · rw [recordSent]
        exact ⟨rfl, rfl, rfl⟩
  · rcases hbuild : buildUpTo book session timestamp waiting (min waiting.length limit) with
      fault' | ⟨bytes, count⟩
    · rw [assemble, hbuild] at h
      cases h
      exact ⟨rfl, buildUpTo_error hloaded.bits_le hbuild⟩
    · rw [assemble, hbuild] at h
      cases h

/-- Ten sub-packets of 504 bytes, each of which has a code of nine bits. -/
def wide : List SubPacket := List.replicate 10 ⟨0x20, 0, List.replicate 504 0x41⟩

/-- The codes of frames that are all the same. -/
theorem codeLength_region_replicate (book : Code.Book) (packet : SubPacket) (count : Nat) :
    codeLength book (region (List.replicate count packet) ++ [0]) =
      count * codeLength book (packet.frame packet.sequence) + (book.encoder.entry 0).bits := by
  induction count with
  | zero => simp [codeLength]
  | succ count ih =>
    have happend : ∀ front back : Bytes,
        codeLength book (front ++ back) = codeLength book front + codeLength book back := by
      intro front back
      rw [codeLength, List.map_append, List.sum_append]
      rfl
    rw [List.replicate_succ, region_cons, List.append_assoc, happend, ih, Nat.succ_mul]
    omega

/-- The codes of the first of them. -/
theorem codeLength_wide {book : Code.Book} (hencoder : book.encoder = Code.Lengths.standard.encoder)
    {count : Nat} (h : count ≤ 10) :
    codeLength book (region (leading 0 wide count) ++ [0]) = count * 4554 + 3 := by
  have hbits : ∀ b, (book.encoder.entry b).bits = Code.Lengths.standard.length b := by
    intro b
    rw [hencoder, Code.Lengths.entry_encoder, Code.Lengths.entry]
  have hframe : codeLength book
      ((⟨0x20, 0, List.replicate 504 0x41⟩ : SubPacket).frame 0) = 4554 := by
    simp only [codeLength, hbits]
    decide +kernel
  have hleading : leading 0 wide count =
      List.replicate count ⟨0x20, 0, List.replicate 504 0x41⟩ := by
    rw [leading, wide, List.take_replicate, Nat.min_eq_left h, List.map_replicate]
    rfl
  rw [hleading, codeLength_region_replicate, hframe, hbits]
  rfl

/-- Eight of the ten stay below 4096 bytes, but only seven compress into the room. -/
theorem packs_greatest_wide : ∃ book session datagram after,
    Code.Lengths.standard.book = .ok book ∧ book.Loaded ∧
    session = start (.v4 127 0 0 1 5000) 7 (.ofText "secret") 0 ∧
    session.assemble book 10 0 wide = (.ok datagram, after) ∧
    headerSize + framedLength (wide.take 8) < maxDatagramSize ∧ datagram.consumed = 7 ∧
    after.serverSequence = 1 ∧ after.lastSent = some ⟨0, datagram.bytes⟩ := by
  obtain ⟨book, hbook, hencoder, -⟩ := Code.Lengths.standard.exists_book
  have hloaded : book.Loaded := ⟨_, _, hbook⟩
  let session := start (.v4 127 0 0 1 5000) 7 (.ofText "secret") 0
  have hshort : ∀ packet ∈ wide, packet.frameLength ≤ maxFrameSize := by
    intro packet hmem
    rw [List.eq_of_mem_replicate hmem]
    exact SubPacket.frameLength_le (List.length_replicate ..).le
  obtain ⟨hpacks, hsent, -⟩ := packs_greatest hloaded 10 session 0 wide
  obtain ⟨datagram, after, hassemble, ⟨hmem, hgreatest⟩, -⟩ := hpacks hshort
  obtain ⟨hnumber, hslot, -⟩ := hsent datagram after hassemble
  refine ⟨book, session, datagram, after, hbook, hloaded, rfl, hassemble, by decide +kernel, ?_,
    hnumber, hslot⟩
  have hseven : 7 ∈ fitting book 0 10 wide := by
    refine ⟨by decide, by decide +kernel, ?_⟩
    rw [codeLength_wide hencoder (by decide)]
    decide
  have hle := hgreatest hseven
  obtain ⟨hten, -, hroom⟩ := hmem
  have hwide := codeLength_wide hencoder (Nat.le_trans hten (by decide))
  have hsmall : datagram.consumed * 4554 + 3 < 8 * (maxStreamSize - 1) := hwide ▸ hroom
  have hsize : maxStreamSize = 4048 := rfl
  omega

end Session

end ZoneRelay
