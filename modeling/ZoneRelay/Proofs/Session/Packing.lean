import ZoneRelay.Proofs.Session.Client
import ZoneRelay.Proofs.Session.Run

/-!
# What is packed

Packing tries as many of the waiting sub-packets as the limit allows and one less each time
they do not compress into the room for the stream. An attempt **frames as many as there is room
for** (`ZoneRelay.Session.Framed`), unless it meets one that is too large for a frame. It does not
come to nothing: the frame of one sub-packet has at most 508 bytes, and with codes of at most 32
bits these always fit (`ZoneRelay.Session.encodeRegion_eq_ok`).

**The clear datagram is packed from the front of what waits**
(`ZoneRelay.Session.Packed`): it carries the frames of the first sub-packets, all under the
relay's number, and one zero byte, and is not longer than 4096 bytes. Whatever waits, as long
as every payload fits into a frame, such a datagram comes out, enciphered under the session's
key (`ZoneRelay.Session.assemble_eq`).
-/

namespace ZoneRelay

namespace Session

open ZoneRelay.Frame

/-! ### Frames -/

/-- The first sub-packets that wait, under the number of their datagram. -/
def leading (sequence : UInt16) (waiting : List SubPacket) (count : Nat) : List SubPacket :=
  (waiting.take count).map (·.stamped sequence)

/-- If the first sub-packets fit into frames, they do under the number of their datagram. -/
theorem frameLength_le_of_mem_leading (sequence : UInt16) {waiting : List SubPacket} (count : Nat)
    (hshort : ∀ packet ∈ waiting.take count, packet.frameLength ≤ maxFrameSize) :
    ∀ packet ∈ leading sequence waiting count, packet.frameLength ≤ maxFrameSize := by
  intro packet hmem
  obtain ⟨other, hother, rfl⟩ := List.mem_map.mp hmem
  exact hshort other hother

/-- The length of the frames of sub-packets, one after another. -/
def framedLength (packets : List SubPacket) : Nat := (packets.map (·.frameLength)).sum

@[simp] theorem framedLength_cons (packet : SubPacket) (rest : List SubPacket) :
    framedLength (packet :: rest) = packet.frameLength + framedLength rest := by
  rw [framedLength, List.map_cons, List.sum_cons]
  rfl

theorem length_region (packets : List SubPacket) :
    (region packets).length = framedLength packets :=
  length_region_eq_sum packets

/-- Frames are as long under one number as under another. -/
theorem length_region_leading (sequence : UInt16) (waiting : List SubPacket) (count : Nat) :
    (region (leading sequence waiting count)).length = framedLength (waiting.take count) := by
  rw [length_region, leading, framedLength, List.map_map]
  rfl

/-- **Framing any sub-packets** gives the frames of the first of them, none of which is too
large; it ends before 4096 bytes, and one more frame would not. -/
structure Framed (sequence : UInt16) (before : Bytes) (waiting : List SubPacket) (framed : Bytes)
    (count : Nat) : Prop where
  count_le : count ≤ waiting.length
  framed_eq : framed = before ++ region (leading sequence waiting count)
  short : ∀ packet ∈ waiting.take count, packet.frameLength ≤ maxFrameSize
  below : headerSize + before.length < maxDatagramSize →
    headerSize + framed.length < maxDatagramSize
  full : ∀ more, count < more → more ≤ waiting.length →
    maxDatagramSize ≤ headerSize + before.length + framedLength (waiting.take more)

namespace Framed

variable {sequence : UInt16} {before framed : Bytes} {packet : SubPacket} {rest : List SubPacket}
  {count : Nat}

/-- Nothing is framed of no sub-packets. -/
theorem nil (sequence : UInt16) (before : Bytes) : Framed sequence before [] before 0 where
  count_le := Nat.le_refl _
  framed_eq := by rw [leading, List.take_nil, List.map_nil, region_nil, List.append_nil]
  short := nofun
  below hroom := hroom
  full more hmore hle := absurd (Nat.lt_of_lt_of_le hmore hle) (Nat.lt_irrefl 0)

/-- Nothing is framed if the first frame is too much. -/
theorem stop (hfull : maxDatagramSize ≤ headerSize + before.length + packet.frameLength) :
    Framed sequence before (packet :: rest) before 0 where
  count_le := Nat.zero_le _
  framed_eq := by rw [leading, List.take_zero, List.map_nil, region_nil, List.append_nil]
  short := nofun
  below hroom := hroom
  full more hmore _ := by
    obtain ⟨more, rfl⟩ := Nat.exists_eq_succ_of_ne_zero (Nat.ne_of_gt hmore)
    rw [List.take_succ_cons, framedLength_cons]
    omega

/-- A frame for which there is room comes in front of what is framed behind it. -/
theorem cons (hroom : headerSize + before.length + packet.frameLength < maxDatagramSize)
    (hshort : packet.frameLength ≤ maxFrameSize)
    (h : Framed sequence (before ++ packet.frame sequence) rest framed count) :
    Framed sequence before (packet :: rest) framed (count + 1) := by
  have hlength : (before ++ packet.frame sequence).length = before.length + packet.frameLength := by
    rw [List.length_append, SubPacket.length_frame]
  refine ⟨Nat.succ_le_succ h.count_le, ?_, ?_, ?_, ?_⟩
  · rw [h.framed_eq, leading, leading, List.take_succ_cons, List.map_cons, region_cons,
      SubPacket.frame_stamped, List.append_assoc]
    rfl
  · rw [List.take_succ_cons, List.forall_mem_cons]
    exact ⟨hshort, h.short⟩
  · intro _
    refine h.below ?_
    rwa [hlength, ← Nat.add_assoc]
  · intro more hmore hle
    obtain ⟨more, rfl⟩ := Nat.exists_eq_succ_of_ne_zero (Nat.ne_of_gt (Nat.zero_lt_of_lt hmore))
    have hrest := h.full more (Nat.lt_of_succ_lt_succ hmore) (Nat.le_of_succ_le_succ hle)
    rw [hlength] at hrest
    rw [List.take_succ_cons, framedLength_cons]
    omega

end Framed

/-- Framing goes as far as there is room, or meets a sub-packet that is too large. -/
theorem frames_cases (sequence : UInt16) (before : Bytes) (waiting : List SubPacket) :
    (∃ packet ∈ waiting, maxFrameSize < packet.frameLength ∧
      frames sequence before waiting = .error (.oversizedPacket packet.payload.length)) ∨
    ∃ framed count, Framed sequence before waiting framed count ∧
      frames sequence before waiting = .ok (framed, count) := by
  induction waiting generalizing before with
  | nil => exact Or.inr ⟨before, 0, .nil sequence before, rfl⟩
  | cons packet rest ih =>
    by_cases hfull : maxDatagramSize ≤ headerSize + before.length + packet.frameLength
    · exact Or.inr ⟨before, 0, .stop hfull, by rw [frames, if_pos hfull]⟩
    by_cases hlarge : maxFrameSize < packet.frameLength
    · refine Or.inl ⟨packet, List.mem_cons_self, hlarge, ?_⟩
      rw [frames, if_neg hfull, SubPacket.encode, if_pos hlarge]
    have hstep : frames sequence before (packet :: rest) =
        (frames sequence (before ++ packet.frame sequence) rest).map fun r => (r.1, r.2 + 1) := by
      rw [frames, if_neg hfull, SubPacket.encode, if_neg hlarge]
    rcases ih (before ++ packet.frame sequence) with
      ⟨other, hmem, hother, hframes⟩ | ⟨framed, count, hframed, hframes⟩
    · refine Or.inl ⟨other, List.mem_cons_of_mem _ hmem, hother, ?_⟩
      rw [hstep, hframes]
      rfl
    · refine Or.inr ⟨framed, count + 1, ?_, ?_⟩
      · exact .cons (Nat.lt_of_not_le hfull) (Nat.le_of_not_lt hlarge) hframed
      · rw [hstep, hframes]
        rfl

/-- What was framed of the waiting sub-packets is the largest number that can be. -/
theorem Framed.le_count {sequence : UInt16} {waiting : List SubPacket} {framed : Bytes}
    {count more : Nat} (h : Framed sequence [] waiting framed count) (hle : more ≤ waiting.length)
    (hroom : headerSize + framedLength (waiting.take more) < maxDatagramSize) : more ≤ count := by
  refine Nat.le_of_not_lt fun hmore => ?_
  have hfull := h.full more hmore hle
  rw [List.length_nil, Nat.add_zero] at hfull
  omega

/-! ### Streams -/

/-- The header of the next datagram. -/
def nextHeader (session : Session) (timestamp : UInt32) : Header :=
  ⟨session.serverSequence, session.clientSequence, timestamp⟩

/-- **Encoding a region** fails for want of room, or gives a datagram that carries the region
and has at most 4096 bytes. -/
theorem encodeRegion_cases (book : Code.Book) (session : Session) (timestamp : UInt32)
    (region : Bytes) :
    (∃ needed available, encodeRegion book session timestamp region =
      .error (.capacityExceeded needed available)) ∨
    ∃ clear, Client.Carries book (session.nextHeader timestamp) region clear ∧
      clear.length ≤ maxDatagramSize ∧
      encodeRegion book session timestamp region =
        .ok (session.current.schedule.encryptPacket headerSize clear) := by
  rcases book.compress_cases region (Bytes.zeros maxStreamSize) with
    ⟨needed, available, stream, hwrite⟩ | ⟨bitCount, stream, hwrite⟩
  · exact Or.inl ⟨needed, available, by rw [encodeRegion, hwrite]⟩
  · obtain ⟨first, body, hbuffer, hfit, hcount, hstream⟩ := book.compress_eq_ok hwrite
    have hbody : body.length + 1 = maxStreamSize := by
      rw [← List.length_cons, ← hbuffer, Bytes.length_zeros]
    have hsize : maxStreamSize = 4048 := rfl
    -- what fits into the room is far from a bit count that does not fit into its field
    have hsmall : (book.encoder.encode region).length + 8 < 2 ^ 32 := by omega
    refine Or.inr ⟨_, ⟨_, bitCount, stream, hwrite, hsmall, rfl⟩, ?_, ?_⟩
    · rw [List.length_append, Header.length_toBytes, length_sealed, List.length_take, hstream,
        List.length_cons, Bits.length_overwrite hfit, maxDatagramSize]
      omega
    · rw [encodeRegion, hwrite]
      rfl

/-- **A region of one frame always fits**, with codes of at most 32 bits. -/
theorem encodeRegion_eq_ok {book : Code.Book} (hcodes : ∀ b, (book.encoder.entry b).bits ≤ 32)
    (session : Session) (timestamp : UInt32) {region : Bytes}
    (hregion : region.length ≤ maxFrameSize + 1) :
    ∃ bytes, encodeRegion book session timestamp region = .ok bytes := by
  have hlen := Code.Encoder.length_encode_le hcodes region
  have hzeros : Bytes.zeros maxStreamSize = 0 :: Bytes.zeros 4047 := rfl
  have hroom : (book.encoder.encode region).length < 8 * (Bytes.zeros 4047).length := by
    rw [Bytes.length_zeros]
    rw [maxFrameSize] at hregion
    omega
  exact ⟨_, by rw [encodeRegion, hzeros, Code.Book.compress_eq_of_lt 0 hroom]⟩

/-! ### Datagrams -/

/-- **A clear datagram packed from the front of what waits**: the frames of the first `count`
sub-packets under the relay's number and a zero byte, in at most 4096 bytes. -/
structure Packed (book : Code.Book) (session : Session) (timestamp : UInt32)
    (waiting : List SubPacket) (count : Nat) (clear : Bytes) : Prop where
  count_le : count ≤ waiting.length
  carries : Client.Carries book (session.nextHeader timestamp)
    (region (leading session.serverSequence waiting count) ++ [0]) clear
  length_region_lt : headerSize + (region (leading session.serverSequence waiting count)).length <
    maxDatagramSize
  length_le : clear.length ≤ maxDatagramSize

/-- **One attempt** meets a sub-packet that is too large, or encodes what could be framed. -/
theorem build_eq_map (book : Code.Book) (session : Session) (timestamp : UInt32)
    (waiting : List SubPacket) :
    (∃ packet ∈ waiting, maxFrameSize < packet.frameLength ∧
      build book session timestamp waiting = .error (.oversizedPacket packet.payload.length)) ∨
    ∃ framed count, Framed session.serverSequence [] waiting framed count ∧
      build book session timestamp waiting =
        (encodeRegion book session timestamp (framed ++ [0])).map (·, count) := by
  rcases frames_cases session.serverSequence [] waiting with
    ⟨packet, hmem, hlarge, hframes⟩ | ⟨framed, count, hframed, hframes⟩
  · exact Or.inl ⟨packet, hmem, hlarge, by rw [build, hframes]⟩
  · refine Or.inr ⟨framed, count, hframed, ?_⟩
    have hroom := hframed.below (by decide)
    rw [build, hframes]
    simp only [terminated, if_pos hroom]

/-- What was packed of the first sub-packets was packed of all of them. -/
theorem Packed.of_take {book : Code.Book} {session : Session} {timestamp : UInt32}
    {waiting : List SubPacket} {limit count : Nat} {clear : Bytes}
    (h : Packed book session timestamp (waiting.take limit) count clear) :
    Packed book session timestamp waiting count clear := by
  have hcount := h.count_le
  rw [List.length_take] at hcount
  have htake : leading session.serverSequence (waiting.take limit) count =
      leading session.serverSequence waiting count := by
    rw [leading, leading, List.take_take, Nat.min_eq_left (by omega)]
  exact ⟨by omega, htake ▸ h.carries, htake ▸ h.length_region_lt, h.length_le⟩

/-- **Building a datagram** meets a sub-packet that is too large, fails for want of room, or gives
what was packed. There is room for one sub-packet in any case, with codes of at most 32 bits. -/
theorem build_cases {book : Code.Book} (hcodes : ∀ b, (book.encoder.entry b).bits ≤ 32)
    (session : Session) (timestamp : UInt32) (waiting : List SubPacket) :
    (∃ packet ∈ waiting, maxFrameSize < packet.frameLength ∧
      build book session timestamp waiting = .error (.oversizedPacket packet.payload.length)) ∨
    (1 < waiting.length ∧ ∃ needed available, build book session timestamp waiting =
      .error (.capacityExceeded needed available)) ∨
    ∃ clear count, Packed book session timestamp waiting count clear ∧
      ((∀ packet ∈ waiting, packet.frameLength ≤ maxFrameSize) → waiting ≠ [] → 0 < count) ∧
      build book session timestamp waiting =
        .ok (session.current.schedule.encryptPacket headerSize clear, count) := by
  rcases build_eq_map book session timestamp waiting with
    hlarge | ⟨framed, count, hframed, hbuild⟩
  · exact Or.inl hlarge
  have hregion := hframed.framed_eq
  rw [List.nil_append] at hregion
  subst hregion
  rcases encodeRegion_cases book session timestamp
    (region (leading session.serverSequence waiting count) ++ [0]) with
    ⟨needed, available, hfull⟩ | ⟨clear, hcarries, hlength, hclear⟩
  · refine Or.inr (Or.inl ⟨Nat.lt_of_not_le fun hone => ?_, needed, available, ?_⟩)
    · -- the frame of one sub-packet would have fitted
      have hlen := length_region_le (frameLength_le_of_mem_leading session.serverSequence count
        hframed.short)
      have hsize : (leading session.serverSequence waiting count).length ≤ 1 := by
        rw [leading, List.length_map, List.length_take]
        omega
      have hshort : (region (leading session.serverSequence waiting count) ++ [0]).length ≤
          maxFrameSize + 1 := by
        rw [List.length_append, List.length_singleton]
        rw [maxFrameSize] at hlen ⊢
        omega
      obtain ⟨bytes, hok⟩ := encodeRegion_eq_ok hcodes session timestamp hshort
      rw [hfull] at hok
      cases hok
    · rw [hbuild, hfull]
      rfl
  · refine Or.inr (Or.inr ⟨clear, count, ⟨hframed.count_le, hcarries,
      hframed.below (by decide), hlength⟩, fun hshort hne => ?_, ?_⟩)
    · -- the frame of the first one fits by length
      obtain ⟨packet, rest, rfl⟩ := List.exists_cons_of_ne_nil hne
      refine hframed.le_count (Nat.succ_le_succ (Nat.zero_le _)) ?_
      have hfirst := hshort packet List.mem_cons_self
      rw [List.take_succ_cons, framedLength_cons, List.take_zero]
      rw [maxFrameSize] at hfirst
      exact Nat.lt_of_le_of_lt (Nat.add_le_add_left hfirst _) (by decide)
    · rw [hbuild, hclear]
      rfl

/-- **Trying fewer and fewer sub-packets comes to a datagram.** -/
theorem buildUpTo_eq {book : Code.Book} (hcodes : ∀ b, (book.encoder.entry b).bits ≤ 32)
    (session : Session) (timestamp : UInt32) {waiting : List SubPacket}
    (hshort : ∀ packet ∈ waiting, packet.frameLength ≤ maxFrameSize) (limit : Nat) :
    ∃ clear count, Packed book session timestamp waiting count clear ∧ count ≤ limit ∧
      (waiting ≠ [] → 0 < limit → 0 < count) ∧
      buildUpTo book session timestamp waiting limit =
        .ok (session.current.schedule.encryptPacket headerSize clear, count) := by
  induction limit with
  | zero =>
    rcases build_cases hcodes session timestamp (waiting.take 0) with
      ⟨packet, hmem, -⟩ | ⟨hlong, -⟩ | ⟨clear, count, hpacked, -, hbuild⟩
    · cases hmem
    · exact absurd hlong (Nat.not_lt_zero 1)
    · exact ⟨clear, count, hpacked.of_take, hpacked.count_le, nofun, hbuild⟩
  | succ limit ih =>
    have htake : ∀ packet ∈ waiting.take (limit + 1), packet.frameLength ≤ maxFrameSize :=
      fun packet hmem => hshort packet (List.mem_of_mem_take hmem)
    rcases build_cases hcodes session timestamp (waiting.take (limit + 1)) with
      ⟨packet, hmem, hlarge, -⟩ | ⟨hlong, needed, available, hfull⟩ |
        ⟨clear, count, hpacked, hpos, hbuild⟩
    · exact absurd hlarge (Nat.not_lt.mpr (htake packet hmem))
    · -- with one sub-packet it would have fitted, so there is a smaller number to try
      have hmore : limit ≠ 0 := by
        rw [List.length_take] at hlong
        omega
      obtain ⟨clear, count, hpacked, hcount, hpos, hbuild⟩ := ih
      refine ⟨clear, count, hpacked, Nat.le_succ_of_le hcount,
        fun hne _ => hpos hne (Nat.pos_of_ne_zero hmore), ?_⟩
      rw [buildUpTo, hfull]
      simp only [if_neg hmore, hbuild]
    · have hcount := hpacked.count_le
      rw [List.length_take] at hcount
      refine ⟨clear, count, hpacked.of_take, by omega, fun hne _ => hpos htake ?_, ?_⟩
      · rw [ne_eq, List.take_eq_nil_iff]
        exact fun h => h.elim nofun hne
      · rw [buildUpTo, hbuild]

/-- **Packing always gives a datagram**, enciphered under the session's key as it is before;
then the key changes if a zone packet is in it. -/
theorem assemble_eq {book : Code.Book} (hcodes : ∀ b, (book.encoder.entry b).bits ≤ 32)
    (limit : Nat) (session : Session) (timestamp : UInt32) {waiting : List SubPacket}
    (hshort : ∀ packet ∈ waiting, packet.frameLength ≤ maxFrameSize) :
    ∃ clear count bytes zone, Packed book session timestamp waiting count clear ∧
      count ≤ limit ∧ (waiting ≠ [] → 0 < limit → 0 < count) ∧
      bytes = session.current.schedule.encryptPacket headerSize clear ∧
      zone = (waiting.take count).any (·.kind == zoneType) ∧
      session.assemble book limit timestamp waiting =
        (.ok ⟨bytes, session.serverSequence, count, zone⟩,
          if zone then (session.recordSent bytes).rotateKey else session.recordSent bytes) := by
  obtain ⟨clear, count, hpacked, hcount, hpos, hbuild⟩ :=
    buildUpTo_eq hcodes session timestamp hshort (min waiting.length limit)
  refine ⟨clear, count, _, _, hpacked, by omega, fun hne hlimit => hpos hne ?_, rfl, rfl, ?_⟩
  · have := List.length_pos_iff.mpr hne
    omega
  · rw [assemble, hbuild]

/-- **A zone packet that waits alone** changes the key. -/
theorem assemble_zone {book : Code.Book} (hcodes : ∀ b, (book.encoder.entry b).bits ≤ 32)
    {limit : Nat} (hlimit : 0 < limit) (session : Session) (timestamp : UInt32)
    {packet : SubPacket} (hzone : packet.kind = zoneType)
    (hshort : packet.frameLength ≤ maxFrameSize) :
    ∃ datagram bytes, session.assemble book limit timestamp [packet] =
      (.ok datagram, (session.recordSent bytes).rotateKey) := by
  obtain ⟨clear, count, bytes, zone, hpacked, -, hpos, -, hany, hassemble⟩ :=
    assemble_eq hcodes limit session timestamp
      (fun other hmem => (List.mem_singleton.mp hmem) ▸ hshort)
  have hcount : count = 1 := by
    have hle := hpacked.count_le
    have hone := hpos (List.cons_ne_nil _ _) hlimit
    rw [List.length_singleton] at hle
    omega
  have hzone : zone = true := by
    rw [hany, hcount, List.take_succ_cons, List.any_cons, hzone]
    rfl
  rw [hzone, if_pos rfl] at hassemble
  exact ⟨_, bytes, hassemble⟩

end Session

end ZoneRelay
