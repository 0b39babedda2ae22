import ZoneRelay.Frame.SubPacket

/-!
# Taking a region apart

A region of bytes holds frames one after another. A **cursor** (`ZoneRelay.Frame.Cursor`)
walks over them. At each step it looks at the four bytes in front:

* fewer than four bytes, or a declared length of zero, complete the region;
* a declared length within the region gives a sub-packet and moves behind it;
* a login request whose declared length runs over the end takes all the rest;
* any other sub-packet that runs over the end stops the walk, and nothing of it is given.

The length is read as the second byte without its lowest bit, in units of two bytes.
Every sub-packet takes at least four bytes, so the walk ends
(`ZoneRelay.Frame.Cursor.length_rest_lt`).
-/

namespace ZoneRelay

namespace Frame

/-- A sub-packet as it lies in a region, with its own header. -/
structure RawPacket where
  kind : UInt16
  sequence : UInt16
  bytes : Bytes
  deriving DecidableEq

namespace RawPacket

/-- The bytes behind the header. -/
def payload (raw : RawPacket) : Bytes := raw.bytes.drop subHeaderSize

/-- The sub-packet itself. -/
def toSubPacket (raw : RawPacket) : SubPacket := ⟨raw.kind, raw.sequence, raw.payload⟩

end RawPacket

/-- Where a walk over a region stands. -/
inductive Ending where
  /-- Not at its end yet. -/
  | running
  /-- At the end of the region or at a zero length. -/
  | complete
  /-- At a sub-packet that runs over the end of the region. -/
  | truncated (kind : UInt16) (declared remaining : Nat)
  deriving DecidableEq

/-- What the front of a region holds. -/
inductive Front where
  /-- A sub-packet of the given length. -/
  | packet (raw : RawPacket)
  /-- Nothing more. -/
  | stop (ending : Ending)
  deriving DecidableEq

/-- Reads the front of a region. -/
def front : Bytes → Front
  | b₀ :: b₁ :: b₂ :: b₃ :: rest =>
    let region := b₀ :: b₁ :: b₂ :: b₃ :: rest
    let declared := (b₁ &&& 0xFE).toNat * 2
    let kind := Bytes.u16 b₀ b₁ &&& typeMask
    if declared = 0 then .stop .complete
    else if declared ≤ region.length then
      .packet ⟨kind, Bytes.u16 b₂ b₃, region.take declared⟩
    else if kind = loginType then .packet ⟨kind, Bytes.u16 b₂ b₃, region⟩
    else .stop (.truncated kind declared region.length)
  | _ => .stop .complete

/-- A walk over a region: what is left of it, the position, and how it ended. -/
structure Cursor where
  rest : Bytes
  position : Nat
  ending : Ending
  deriving DecidableEq

namespace Cursor

/-- At the front of a region. -/
def start (region : Bytes) : Cursor := ⟨region, 0, .running⟩

/-- One step: the next sub-packet, if there is one, and the cursor behind it. A cursor that
has come to its end stays there. -/
def next (cursor : Cursor) : Option RawPacket × Cursor :=
  match cursor.ending with
  | .running =>
    match front cursor.rest with
    | .packet raw =>
      let size := raw.bytes.length
      (some raw, ⟨cursor.rest.drop size, cursor.position + size, .running⟩)
    | .stop ending => (none, { cursor with ending })
  | _ => (none, cursor)

end Cursor

/-- A sub-packet at the front of a region has at least one byte. -/
theorem front_packet_pos {region : Bytes} {raw : RawPacket} (h : front region = .packet raw) :
    0 < raw.bytes.length ∧ 0 < region.length := by
  unfold front at h
  split at h
  · simp only at h
    split at h
    · cases h
    · split at h
      · cases h
        simp only [List.length_take, List.length_cons]
        omega
      · split at h
        · cases h; simp
        · cases h
  · cases h

/-- A step that gives a sub-packet leaves a shorter rest. -/
theorem Cursor.length_rest_lt {cursor after : Cursor} {raw : RawPacket}
    (h : cursor.next = (some raw, after)) : after.rest.length < cursor.rest.length := by
  unfold next at h
  split at h
  · split at h
    · rename_i found
      cases h
      have := front_packet_pos found
      simp only [List.length_drop]
      omega
    · cases h
  · cases h

/-- All sub-packets from a cursor on, and the cursor at the end. -/
def Cursor.drain (cursor : Cursor) : List RawPacket × Cursor :=
  match _h : cursor.next with
  | (none, after) => ([], after)
  | (some raw, after) => (raw :: after.drain.1, after.drain.2)
termination_by cursor.rest.length
decreasing_by all_goals exact Cursor.length_rest_lt _h

/-- All sub-packets of a region and how the walk over it ended. -/
def demux (region : Bytes) : List RawPacket × Ending :=
  let drained := (Cursor.start region).drain
  (drained.1, drained.2.ending)

end Frame

end ZoneRelay
