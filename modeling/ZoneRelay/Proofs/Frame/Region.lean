import ZoneRelay.Proofs.Frame.Front

/-!
# What any region gives

Nothing is known of a region of bytes before it is taken apart. Even so every sub-packet that it
gives **keeps to the measures of a frame** (`ZoneRelay.Frame.RawPacket.Measured`): its type has
nine bits, it has room for its header, and it is no longer than the largest frame. The last holds
of a login request that takes all the rest too: its declared length ran over the end, so the rest
is shorter than a length that can be declared.
-/

namespace ZoneRelay

namespace Frame

/-- **The measures of a frame.** -/
structure RawPacket.Measured (raw : RawPacket) : Prop where
  kind_masked : raw.kind &&& typeMask = raw.kind
  header_le : subHeaderSize ≤ raw.bytes.length
  le_maxFrameSize : raw.bytes.length ≤ maxFrameSize

/-- The front of a region gives a sub-packet of these measures. -/
theorem measured_of_front {region : Bytes} {raw : RawPacket} (h : front region = .packet raw) :
    raw.Measured := by
  obtain ⟨hlong, hsome, -, rfl⟩ := front_packet_iff.mp h
  obtain ⟨hfour, hmax⟩ := declared_bounds hsome
  refine ⟨?_, ?_, ?_⟩
  · rw [kindOf, UInt16.and_assoc, UInt16.and_self]
  · rw [List.length_take]
    exact Nat.le_min.mpr ⟨hfour, hlong⟩
  · exact Nat.le_trans (List.length_take_le _ _) hmax

/-- A walk gives only sub-packets of these measures. -/
theorem Cursor.measured_of_mem_drain {cursor : Cursor} {raw : RawPacket}
    (h : raw ∈ cursor.drain.1) : raw.Measured := by
  fun_induction Cursor.drain cursor with
  | case1 cursor after hnext => cases h
  | case2 cursor first after hnext ih =>
    rcases List.mem_cons.mp h with rfl | h
    · exact measured_of_front (Cursor.next_eq_some_iff.mp hnext).2.1
    · exact ih h

/-- **Whatever a region holds**, each of its sub-packets keeps to the measures of a frame. -/
theorem measured_of_mem_demux {region : Bytes} {raw : RawPacket} (h : raw ∈ (demux region).1) :
    raw.Measured :=
  Cursor.measured_of_mem_drain h

/-- The payload of such a sub-packet is shorter than the largest frame by a header. -/
theorem RawPacket.Measured.length_payload_le {raw : RawPacket} (h : raw.Measured) :
    raw.payload.length ≤ 504 := by
  have hmax := h.le_maxFrameSize
  rw [maxFrameSize] at hmax
  rw [payload, List.length_drop, subHeaderSize]
  omega

end Frame

end ZoneRelay
