import ZoneRelay.Proofs.Frame.Front

/-!
# What is appended is taken apart again

Sub-packets are appended to a buffer one after another, each under a sequence number of its own.
The limit of a frame is the only reason to refuse one: a payload of more than 504 bytes, and then
the buffer stays as it is (`ZoneRelay.Frame.SubPacket.append_eq`).

Behind the frames stands whatever stands there. A walk over the frames stops at a **tail** that
is too short for a header, and at one that declares no length, which a single zero byte behind the
frames is enough for. Up to there it gives back what was appended
(`ZoneRelay.Frame.appended_taken_apart`), no matter what the sub-packets are: a frame may hold the
frames of others, or zeros, without the walk taking notice of it, since it goes from length to
length.
-/

namespace ZoneRelay

namespace Frame

namespace SubPacket

/-- **A sub-packet is refused exactly if its payload has more than 504 bytes**, and nothing is
appended then. -/
theorem append_eq (packet : SubPacket) (sequence : UInt16) (buffer : Bytes) :
    packet.append sequence buffer =
      if 504 < packet.payload.length then (.error (.oversizedPacket packet.payload.length), buffer)
      else (.ok (), buffer ++ packet.frame sequence) := by
  have hlarge : maxFrameSize < packet.frameLength ↔ 504 < packet.payload.length := by
    simp only [frameLength, subHeaderSize, maxFrameSize, Bytes.roundUp4]
    omega
  rw [append, encode]
  by_cases h : 504 < packet.payload.length
  · rw [if_pos (hlarge.mpr h), if_pos h]
  · rw [if_neg ((not_congr hlarge).mpr h), if_neg h]

/-- **Sub-packets that fit are appended**, each under its number. -/
theorem appendAll_eq {stamped : List (SubPacket × UInt16)}
    (hfits : ∀ entry ∈ stamped, entry.1.payload.length ≤ 504) (buffer : Bytes) :
    appendAll stamped buffer =
      (.ok (), buffer ++ region (stamped.map fun entry => entry.1.stamped entry.2)) := by
  -- each step appends a frame, so the buffer of the rest is another one
  induction stamped generalizing buffer with
  | nil => rw [appendAll, List.map_nil, region_nil, List.append_nil]
  | cons entry rest ih =>
    obtain ⟨packet, sequence⟩ := entry
    have hfirst : ¬ 504 < packet.payload.length := Nat.not_lt.mpr (hfits _ List.mem_cons_self)
    have hrest := ih fun other hother => hfits other (List.mem_cons_of_mem _ hother)
    rw [appendAll, append_eq, if_neg hfirst, List.map_cons, region_cons, ← List.append_assoc]
    exact hrest _

end SubPacket

/-- **Taking apart undoes appending.** Take any sub-packets, each with a payload of at most 504
bytes and with the number it is to have, and any tail that is shorter than four bytes or has zeros
in the upper seven bits of its second byte.

* All of them are appended. A walk over the result and the tail gives as many sub-packets in the
  same order, each with the low nine bits of its type, its number, and its payload filled up with
  zeros to a multiple of four. The walk is complete, and stops at the end of the frames.
* A sub-packet is refused exactly if its payload is longer than that; the buffer it should have
  been appended to is what it was. -/
theorem appended_taken_apart {stamped : List (SubPacket × UInt16)} {tail : Bytes}
    (hfits : ∀ entry ∈ stamped, entry.1.payload.length ≤ 504)
    (htail : tail.length < 4 ∨ Bytes.byteAt tail 1 &&& (0xFE : UInt8) = 0) :
    (∃ region items, SubPacket.appendAll stamped [] = (.ok (), region) ∧
      (Cursor.start (region ++ tail)).drain =
        (items, ⟨tail, (stamped.map fun entry => entry.1.frameLength).sum, .complete⟩) ∧
      items.map RawPacket.toSubPacket = stamped.map fun entry =>
        ⟨entry.1.kind &&& typeMask, entry.2, entry.1.padded⟩) ∧
    ∀ (packet : SubPacket) (sequence : UInt16) (buffer : Bytes),
      packet.append sequence buffer =
        if 504 < packet.payload.length then
          (.error (.oversizedPacket packet.payload.length), buffer)
        else (.ok (), buffer ++ packet.frame sequence) := by
  -- the ninth bit of a type may be set in the tail, the length is in the other seven
  have hstop : front tail = .stop .complete := by
    rw [front_complete_iff]
    refine htail.imp_right fun hzero => ?_
    rw [declared, hzero]
    rfl
  have hshort : ∀ packet ∈ stamped.map fun entry => entry.1.stamped entry.2,
      packet.frameLength ≤ maxFrameSize := by
    intro packet hpacket
    obtain ⟨entry, hentry, rfl⟩ := List.mem_map.mp hpacket
    exact SubPacket.frameLength_le (hfits entry hentry)
  have hlength : (region (stamped.map fun entry => entry.1.stamped entry.2)).length =
      (stamped.map fun entry => entry.1.frameLength).sum := by
    rw [length_region_eq_sum, List.map_map]
    rfl
  have hdrain := drain_region hshort hstop 0
  rw [hlength, Nat.zero_add] at hdrain
  refine ⟨⟨_, _, SubPacket.appendAll_eq hfits [], hdrain, ?_⟩, SubPacket.append_eq⟩
  rw [List.map_map, List.map_map]
  refine List.map_congr_left fun entry _ => ?_
  rw [Function.comp_apply, Function.comp_apply, SubPacket.toSubPacket_raw]
  rfl

/-- A type of more than nine bits and a payload to be filled up, an empty payload, and a tail whose
second byte belongs to a type. -/
theorem appended_taken_apart_two :
    ∃ region items, SubPacket.appendAll
        [(⟨0xFFAB, 0, [1, 2, 3, 4, 5]⟩, 7), (⟨0x00A, 0, []⟩, 65535)] [] = (.ok (), region) ∧
      (Cursor.start (region ++ [9, 1, 9, 9, 9])).drain =
        (items, ⟨[9, 1, 9, 9, 9], 16, .complete⟩) ∧
      items.map RawPacket.toSubPacket =
        [⟨0x1AB, 7, [1, 2, 3, 4, 5, 0, 0, 0]⟩, ⟨0x00A, 65535, []⟩] :=
  (appended_taken_apart (by decide) (Or.inr (by decide))).1

end Frame

end ZoneRelay
