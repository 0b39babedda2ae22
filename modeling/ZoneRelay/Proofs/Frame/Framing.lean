import Mathlib.Algebra.GroupWithZero.Nat
import ZoneRelay.Frame.Demux

/-!
# Taking frames apart again

The writer of a frame counts its length in units of four bytes and the reader in units of
two, in the seven bits above the ninth bit of the type; for a frame of at most 508 bytes they
mean the same (`ZoneRelay.Frame.SubPacket.front_frame`). So frames put one after another are
taken apart again, each with its own sequence number (`ZoneRelay.Frame.demux_region`), and
what comes out of a frame is what went in, its type cut to nine bits and its payload filled
up with zeros to a multiple of four (`ZoneRelay.Frame.SubPacket.delivered`).
-/

namespace ZoneRelay

namespace Frame

namespace SubPacket

/-! ### What a frame delivers -/

/-- The payload, filled up with zeros to a multiple of four. -/
def padded (packet : SubPacket) : Bytes :=
  packet.payload ++ Bytes.zeros (Bytes.roundUp4 packet.payload.length - packet.payload.length)

/-- A sub-packet as its reader gets it. -/
def delivered (packet : SubPacket) : SubPacket :=
  ⟨packet.kind &&& typeMask, packet.sequence, packet.padded⟩

/-- A sub-packet as it lies in a region. -/
def raw (packet : SubPacket) : RawPacket :=
  ⟨packet.kind &&& typeMask, packet.sequence, packet.frame packet.sequence⟩

/-- The sub-packet with another sequence number. -/
def stamped (packet : SubPacket) (sequence : UInt16) : SubPacket := { packet with sequence }

/-- The frame does not look at the sub-packet's own number. -/
@[simp] theorem frame_stamped (packet : SubPacket) (sequence other : UInt16) :
    (packet.stamped sequence).frame other = packet.frame other :=
  rfl

theorem drop_frame (packet : SubPacket) (sequence : UInt16) :
    (packet.frame sequence).drop subHeaderSize = packet.padded := by
  have hpad : packet.frameLength - subHeaderSize - packet.payload.length =
      Bytes.roundUp4 packet.payload.length - packet.payload.length := by
    simp only [frameLength, subHeaderSize, Bytes.roundUp4]
    omega
  simp only [frame, Bytes.ofU16, subHeaderSize, List.cons_append, List.nil_append,
    List.drop_succ_cons, List.drop_zero, padded, ← hpad]

@[simp] theorem toSubPacket_raw (packet : SubPacket) :
    packet.raw.toSubPacket = packet.delivered := by
  rw [RawPacket.toSubPacket, RawPacket.payload, raw, drop_frame, delivered]

/-- A payload of at most 504 bytes fits into a frame. -/
theorem frameLength_le {packet : SubPacket} (h : packet.payload.length ≤ 504) :
    packet.frameLength ≤ maxFrameSize := by
  simp only [frameLength, subHeaderSize, maxFrameSize, Bytes.roundUp4]
  omega

theorem four_le_frameLength (packet : SubPacket) : 4 ≤ packet.frameLength := by
  simp only [frameLength, subHeaderSize, Bytes.roundUp4]
  omega

/-! ### The front of a frame -/

theorem getLsbD_typeMask (i : Nat) (hi : i < 16) :
    typeMask.toBitVec.getLsbD i = decide (i < 9) := by
  revert i
  decide

theorem getLsbD_lengthMask (i : Nat) (hi : i < 8) :
    (0xFE : UInt8).toBitVec.getLsbD i = decide (0 < i) := by
  revert i
  decide

/-- The length field does not touch the type. -/
theorem kind_field (kind : UInt16) (units : UInt8) :
    Bytes.u16 kind.toUInt8 (((kind >>> 8) &&& 1).toUInt8 ||| (units <<< 1)) &&& typeMask =
      kind &&& typeMask := by
  apply UInt16.eq_of_toBitVec_eq
  refine BitVec.eq_of_getLsbD_eq fun i hi => ?_
  rw [UInt16.toBitVec_and, UInt16.toBitVec_and, BitVec.getLsbD_and, BitVec.getLsbD_and,
    getLsbD_typeMask i hi]
  by_cases h9 : i < 9
  · rw [decide_eq_true h9, Bool.and_true, Bool.and_true]
    simp only [Bytes.u16, UInt16.toBitVec_or, UInt16.toBitVec_shiftLeft, UInt8.toBitVec_toUInt16,
      UInt16.toBitVec_toUInt8, UInt8.toBitVec_or, UInt16.toBitVec_and,
      UInt16.toBitVec_shiftRight, UInt8.toBitVec_shiftLeft]
    -- the ninth bit is the lowest of the second byte, the length stands above it
    by_cases h8 : i < 8
    · simp [h8, hi]
    · obtain rfl : i = 8 := by omega
      simp
  · simp [h9]

/-- The type does not touch the length field. -/
theorem length_field (kind : UInt16) {units : UInt8} (h : units.toNat < 128) :
    ((((kind >>> 8) &&& 1).toUInt8 ||| (units <<< 1)) &&& 0xFE).toNat * 2 = 4 * units.toNat := by
  have hmask : ((((kind >>> 8) &&& 1).toUInt8 ||| (units <<< 1)) &&& (0xFE : UInt8)) =
      units <<< 1 := by
    refine Bytes.byte_ext fun i hi => ?_
    rw [UInt8.toBitVec_and, BitVec.getLsbD_and, getLsbD_lengthMask i hi]
    simp only [UInt16.toBitVec_toUInt8, UInt8.toBitVec_or, UInt16.toBitVec_and,
      UInt16.toBitVec_shiftRight, UInt8.toBitVec_shiftLeft]
    cases i with
    | zero => simp
    | succ i => simp [hi]
  rw [hmask, UInt8.toNat_shiftLeft]
  simp [Nat.shiftLeft_eq]
  omega

/-- The units of a frame that is short enough. -/
theorem toNat_units {packet : SubPacket} (h : packet.frameLength ≤ maxFrameSize) :
    (packet.frameLength / 4).toUInt8.toNat < 128 ∧
      4 * (packet.frameLength / 4).toUInt8.toNat = packet.frameLength := by
  have hfour : packet.frameLength % 4 = 0 := by
    rw [frameLength, Bytes.roundUp4]
    exact Nat.mul_mod_left _ _
  have hsmall : (packet.frameLength / 4).toUInt8.toNat = packet.frameLength / 4 := by
    rw [Nat.toUInt8_eq, UInt8.toNat_ofNat']
    refine Nat.mod_eq_of_lt ?_
    rw [maxFrameSize] at h
    omega
  rw [maxFrameSize] at h
  omega

/-- **A frame at the front of a region is read as what it frames.** -/
theorem front_frame {packet : SubPacket} (h : packet.frameLength ≤ maxFrameSize) (rest : Bytes) :
    front (packet.frame packet.sequence ++ rest) = .packet packet.raw := by
  obtain ⟨hunits, hlength⟩ := toNat_units h
  have hpos := packet.four_le_frameLength
  -- what the reader takes for the length is the length of the frame
  have hdeclared := length_field packet.kind hunits
  rw [hlength] at hdeclared
  have hframe := packet.length_frame packet.sequence
  have htake : (packet.frame packet.sequence ++ rest).take packet.frameLength =
      packet.frame packet.sequence := by
    rw [← hframe, List.take_left]
  have hlong : packet.frameLength ≤ (packet.frame packet.sequence ++ rest).length := by
    rw [List.length_append, hframe]
    omega
  rw [raw]
  simp only [frame, Bytes.ofU16, List.cons_append, List.nil_append] at htake hlong ⊢
  rw [front]
  simp only [hdeclared, kind_field, Bytes.u16_ofU16, if_pos hlong, htake]
  rw [if_neg (by omega)]

end SubPacket

/-! ### Regions -/

/-- The frames of sub-packets, one after another. -/
def region (packets : List SubPacket) : Bytes :=
  packets.flatMap fun packet => packet.frame packet.sequence

@[simp] theorem region_nil : region [] = [] := rfl

@[simp] theorem region_cons (packet : SubPacket) (rest : List SubPacket) :
    region (packet :: rest) = packet.frame packet.sequence ++ region rest := by
  simp [region]

/-- Frames are together as long as each of them. -/
theorem length_region_eq_sum (packets : List SubPacket) :
    (region packets).length = (packets.map (·.frameLength)).sum := by
  induction packets with
  | nil => rfl
  | cons packet rest ih =>
    rw [region_cons, List.length_append, SubPacket.length_frame, ih, List.map_cons, List.sum_cons]

/-- No frame is longer than the largest one. -/
theorem length_region_le {packets : List SubPacket}
    (h : ∀ packet ∈ packets, packet.frameLength ≤ maxFrameSize) :
    (region packets).length ≤ packets.length * maxFrameSize := by
  induction packets with
  | nil => exact Nat.zero_le _
  | cons packet rest ih =>
    have hfirst := h packet List.mem_cons_self
    have hrest := ih fun other hmem => h other (List.mem_cons_of_mem _ hmem)
    rw [region_cons, List.length_append, SubPacket.length_frame, List.length_cons, Nat.succ_mul]
    omega

/-! ### Walks -/

/-- **A step gives a sub-packet** if the walk has not ended and one lies in front. -/
theorem Cursor.next_eq_some_iff {cursor after : Cursor} {raw : RawPacket} :
    cursor.next = (some raw, after) ↔
      cursor.ending = .running ∧ front cursor.rest = .packet raw ∧
        after = ⟨cursor.rest.drop raw.bytes.length, cursor.position + raw.bytes.length,
          .running⟩ := by
  constructor
  · intro h
    unfold next at h
    split at h
    case h_1 hrun =>
      split at h
      case h_1 raw' hfront =>
        cases h
        exact ⟨hrun, hfront, rfl⟩
      case h_2 => cases h
    case h_2 => cases h
  · rintro ⟨hrun, hfront, rfl⟩
    rw [next, hrun]
    simp only [hfront]

/-- **A step gives none** if the walk has ended before, and then it changes nothing, or if it ends
here. -/
theorem Cursor.next_eq_none_iff {cursor last : Cursor} :
    cursor.next = (none, last) ↔
      (cursor.ending ≠ .running ∧ last = cursor) ∨
        (cursor.ending = .running ∧
          ∃ ending, front cursor.rest = .stop ending ∧ last = { cursor with ending }) := by
  constructor
  · intro h
    unfold next at h
    split at h
    case h_1 hrun =>
      split at h
      case h_1 => cases h
      case h_2 ending hfront =>
        cases h
        exact Or.inr ⟨hrun, ending, hfront, rfl⟩
    case h_2 hended =>
      cases h
      exact Or.inl ⟨hended, rfl⟩
  · rintro (⟨hended, rfl⟩ | ⟨hrun, ending, hfront, rfl⟩)
    · rw [next]
      split
      case h_1 hrun => exact absurd hrun hended
      case h_2 => rfl
    · rw [next, hrun]
      simp only [hfront]

theorem Cursor.drain_stop {cursor : Cursor} {ending : Ending} (hrun : cursor.ending = .running)
    (hfront : front cursor.rest = .stop ending) :
    cursor.drain = ([], { cursor with ending }) := by
  have hnext := next_eq_none_iff.mpr (Or.inr ⟨hrun, ending, hfront, rfl⟩)
  rw [drain]
  split
  · rename_i after heq
    rw [hnext] at heq
    cases heq
    rfl
  · rename_i raw after heq
    rw [hnext] at heq
    cases heq

theorem Cursor.drain_packet {cursor : Cursor} {raw : RawPacket} (hrun : cursor.ending = .running)
    (hfront : front cursor.rest = .packet raw) :
    cursor.drain =
      (raw :: (Cursor.mk (cursor.rest.drop raw.bytes.length)
          (cursor.position + raw.bytes.length) .running).drain.1,
        (Cursor.mk (cursor.rest.drop raw.bytes.length)
          (cursor.position + raw.bytes.length) .running).drain.2) := by
  have hnext := next_eq_some_iff.mpr ⟨hrun, hfront, rfl⟩
  rw [drain]
  split
  · rename_i after heq
    rw [hnext] at heq
    cases heq
  · rename_i raw' after heq
    rw [hnext] at heq
    cases heq
    rfl

/-- What a walk gives does not depend on where it is said to begin. -/
theorem Cursor.drain_moved (region : Bytes) (position other : Nat) :
    (Cursor.mk region position .running).drain.1 = (Cursor.mk region other .running).drain.1 ∧
      (Cursor.mk region position .running).drain.2.ending =
        (Cursor.mk region other .running).drain.2.ending := by
  induction hsize : region.length using Nat.strongRecOn generalizing region position other with
  | ind size ih =>
    rcases hfront : front region with raw | ending
    · have hpos := front_packet_pos hfront
      have hless : (region.drop raw.bytes.length).length < size := by
        rw [List.length_drop]
        omega
      obtain ⟨hsame, hending⟩ := ih _ hless _ (position + raw.bytes.length)
        (other + raw.bytes.length) rfl
      have hdrain := fun position =>
        Cursor.drain_packet (rfl : (Cursor.mk region position .running).ending = .running) hfront
      rw [hdrain position, hdrain other]
      exact ⟨congrArg (raw :: ·) hsame, hending⟩
    · rw [Cursor.drain_stop rfl hfront, Cursor.drain_stop rfl hfront]
      exact ⟨rfl, rfl⟩

/-- **A region with a sub-packet in front** is that one and what is behind it. -/
theorem demux_packet {region : Bytes} {raw : RawPacket} (h : front region = .packet raw) :
    demux region = (raw :: (demux (region.drop raw.bytes.length)).1,
      (demux (region.drop raw.bytes.length)).2) := by
  obtain ⟨hsame, hending⟩ := Cursor.drain_moved (region.drop raw.bytes.length)
    (0 + raw.bytes.length) 0
  simp only [demux, Cursor.start]
  rw [Cursor.drain_packet rfl h, hsame, hending]

/-- **A region with none** ends where it begins. -/
theorem demux_stop {region : Bytes} {ending : Ending} (h : front region = .stop ending) :
    demux region = ([], ending) := by
  rw [demux, Cursor.start, Cursor.drain_stop rfl h]

/-- **A walk over frames** gives every one of them and stops behind the last, at whatever ends
the region there. -/
theorem drain_region {packets : List SubPacket}
    (h : ∀ packet ∈ packets, packet.frameLength ≤ maxFrameSize) {tail : Bytes} {ending : Ending}
    (htail : front tail = .stop ending) (position : Nat) :
    (Cursor.mk (region packets ++ tail) position .running).drain =
      (packets.map SubPacket.raw, ⟨tail, position + (region packets).length, ending⟩) := by
  induction packets generalizing position with
  | nil => exact Cursor.drain_stop rfl htail
  | cons packet rest ih =>
    have hfront := packet.front_frame (h packet List.mem_cons_self) (region rest ++ tail)
    have hbytes : packet.raw.bytes = packet.frame packet.sequence := rfl
    rw [region_cons, List.append_assoc, Cursor.drain_packet rfl hfront]
    simp only [hbytes, List.drop_left]
    rw [ih fun other hmem => h other (List.mem_cons_of_mem _ hmem), List.map_cons,
      List.length_append, Nat.add_assoc]

/-- **Frames are taken apart again**, in order and each as what it frames. -/
theorem demux_region {packets : List SubPacket}
    (h : ∀ packet ∈ packets, packet.frameLength ≤ maxFrameSize) {tail : Bytes} {ending : Ending}
    (htail : front tail = .stop ending) :
    demux (region packets ++ tail) = (packets.map SubPacket.raw, ending) := by
  rw [demux, Cursor.start, drain_region h htail]

/-- **A frame is taken apart again** as the type and the padded payload that it frames. -/
theorem SubPacket.demux_frame {packet : SubPacket} (h : packet.frameLength ≤ maxFrameSize)
    (sequence : UInt16) {tail : Bytes} {ending : Ending} (htail : front tail = .stop ending) :
    demux (packet.frame sequence ++ tail) = ([(packet.stamped sequence).raw], ending) := by
  have hfits : ∀ other ∈ [packet.stamped sequence], other.frameLength ≤ maxFrameSize := by
    intro other hother
    rw [List.mem_singleton.mp hother]
    exact h
  have hdemux := demux_region hfits htail
  rwa [region_cons, region_nil, List.append_nil] at hdemux

/-- A zero byte behind the frames ends them. -/
theorem front_zero : front [0] = .stop .complete := rfl

end Frame

end ZoneRelay
