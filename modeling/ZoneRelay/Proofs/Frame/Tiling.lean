import Mathlib.Logic.Function.Iterate
import ZoneRelay.Proofs.Frame.Region

/-!
# A region is tiled

A region may come from anyone and hold anything. A **walk** over it
(`ZoneRelay.Frame.Cursor.Walk`) asks for the next sub-packet until there is none, and what it has
been given by then lies side by side from the first byte of the region on
(`ZoneRelay.Frame.region_tiled`):

| question | answer |
|---|---|
| Does a walk end? | yes, after at most one sub-packet for every four bytes |
| What is lost? | nothing: the sub-packets are the beginning of the region, up to where the walk stopped |
| How long is a sub-packet? | as long as it declares (`ZoneRelay.Frame.Lies`), but for a login request that runs over the end: it takes all the rest |
| Is it what was sent? | framed again under its own number it is the same bytes, if it is as long as it declares |
| Why did the walk stop? | its ending says so (`ZoneRelay.Frame.Ended`) |
| What if one asks again? | nothing comes and nothing moves |

What one step gives is read off the front of what is left; the invariant of a walk
(`ZoneRelay.Frame.Tiles`) says of what is left at its beginning that the sub-packets and what is
left at its end make it up.
-/

namespace ZoneRelay

namespace Frame

/-! ### Walks -/

namespace Cursor

/-- **Asking for the next sub-packet until there is none.** -/
inductive Walk : Cursor → List RawPacket → Cursor → Prop
  /-- There is none. -/
  | stop {cursor last : Cursor} : cursor.next = (none, last) → Walk cursor [] last
  /-- There is one, and the walk goes on behind it. -/
  | more {cursor after last : Cursor} {raw : RawPacket} {items : List RawPacket} :
      cursor.next = (some raw, after) → Walk after items last → Walk cursor (raw :: items) last

/-- **Every walk ends.** -/
theorem walk_drain (cursor : Cursor) : cursor.Walk cursor.drain.1 cursor.drain.2 := by
  fun_induction drain cursor with
  | case1 cursor after hnext => exact .stop hnext
  | case2 cursor raw after hnext ih => exact .more hnext ih

end Cursor

/-! ### A sub-packet in its place -/

/-- **A sub-packet as it lies in front of what is left of a region**, with the others that come
behind it. -/
structure Lies (rest : Bytes) (raw : RawPacket) (others : List RawPacket) : Prop where
  kind_eq : raw.kind = kindOf rest
  sequence_eq : raw.sequence = sequenceOf rest
  bytes_eq : raw.bytes = rest.take (declared rest)
  four_le : 4 ≤ raw.bytes.length
  le_largest : raw.bytes.length ≤ 508
  /-- It is as long as it declares, unless it is a login request that runs over the end: that takes
  all the rest, and is the last. -/
  length_eq : raw.bytes.length = declared rest ∨
    raw.kind = loginType ∧ rest.length < declared rest ∧ raw.bytes = rest ∧ others = []
  /-- If it is as long as it declares, it is framed again as it lies. -/
  encode_eq : raw.bytes.length = declared rest →
    raw.toSubPacket.encode raw.sequence = .ok raw.bytes

/-- **Why a walk ended**, with this left of the region. -/
structure Ended (rest : Bytes) (ending : Ending) : Prop where
  complete_iff : ending = .complete ↔ rest.length < 4 ∨ declared rest = 0
  /-- A sub-packet runs over the end and is no login request. -/
  truncated_iff : ∀ kind size remaining, ending = .truncated kind size remaining ↔
    4 ≤ rest.length ∧ kindOf rest ≠ loginType ∧ rest.length < declared rest ∧
      kind = kindOf rest ∧ size = declared rest ∧ remaining = rest.length
  ne_running : ending ≠ .running

/-- Nothing is left out in front of what follows a sub-packet. -/
theorem bytes_append_drop {rest : Bytes} {raw : RawPacket} (h : front rest = .packet raw) :
    raw.bytes ++ rest.drop raw.bytes.length = rest := by
  obtain ⟨-, -, -, rfl⟩ := front_packet_iff.mp h
  rw [List.length_take]
  rcases Nat.le_total (declared rest) rest.length with hle | hover
  · rw [Nat.min_eq_left hle, List.take_append_drop]
  · rw [Nat.min_eq_right hover, List.take_of_length_le hover, List.drop_length, List.append_nil]

/-- What is in front lies there; nothing comes behind it where nothing is left. -/
theorem lies_of_front {rest : Bytes} {raw : RawPacket} {others : List RawPacket}
    (h : front rest = .packet raw) (hlast : rest.drop raw.bytes.length = [] → others = []) :
    Lies rest raw others := by
  have hmeasured := measured_of_front h
  have hencode := encode_of_front h
  obtain ⟨-, -, hgives, rfl⟩ := front_packet_iff.mp h
  refine ⟨rfl, rfl, rfl, hmeasured.header_le, hmeasured.le_maxFrameSize, ?_, hencode⟩
  rcases Nat.lt_or_ge rest.length (declared rest) with hover | hle
  · -- what is there falls short of the declared length, so all of it is taken
    have hall : rest.take (declared rest) = rest := List.take_of_length_le (Nat.le_of_lt hover)
    refine Or.inr ⟨hgives.resolve_left (Nat.not_le.mpr hover), hover, hall, hlast ?_⟩
    rw [hall, List.drop_length]
  · exact Or.inl (by rw [List.length_take, Nat.min_eq_left hle])

theorem ended_of_front {rest : Bytes} {ending : Ending} (h : front rest = .stop ending) :
    Ended rest ending := by
  have hstop : ∀ other, ending = other ↔ front rest = .stop other := fun other => by
    rw [h]
    exact ⟨congrArg _, fun heq => by cases heq; rfl⟩
  refine ⟨?_, fun kind size remaining => ?_, ?_⟩
  · rw [hstop, front_complete_iff]
    rfl
  · rw [hstop, front_truncated_iff]
    rfl
  · rw [Ne, hstop]
    exact front_ne_running rest

/-! ### A whole walk -/

/-- **What a walk makes of what is left of a region.** -/
structure Tiles (cursor : Cursor) (items : List RawPacket) (last : Cursor) : Prop where
  rest_eq : cursor.rest = items.flatMap RawPacket.bytes ++ last.rest
  position_eq : last.position = cursor.position + (items.flatMap RawPacket.bytes).length
  room : 4 * items.length ≤ (items.flatMap RawPacket.bytes).length
  lies : ∀ before raw others, items = before ++ raw :: others →
    Lies (cursor.rest.drop (before.flatMap RawPacket.bytes).length) raw others
  ended : Ended last.rest last.ending

namespace Tiles

variable {cursor last : Cursor} {items : List RawPacket}

/-- Where nothing is left there is no sub-packet. -/
theorem eq_nil (h : Tiles cursor items last) (hrest : cursor.rest = []) : items = [] := by
  have hroom := h.room
  have hempty := h.rest_eq.symm.trans hrest
  rw [(List.append_eq_nil_iff.mp hempty).1, List.length_nil] at hroom
  exact List.eq_nil_of_length_eq_zero (by omega)

/-- A walk that ends at once. -/
theorem stop {ending : Ending} (h : front cursor.rest = .stop ending) :
    Tiles cursor [] { cursor with ending } where
  rest_eq := rfl
  position_eq := rfl
  room := Nat.le_refl 0
  lies before raw others hitems := absurd hitems (by simp)
  ended := ended_of_front h

/-- **A sub-packet in front of a walk.** -/
theorem cons {raw : RawPacket} (h : front cursor.rest = .packet raw)
    (hrest : Tiles ⟨cursor.rest.drop raw.bytes.length, cursor.position + raw.bytes.length,
      .running⟩ items last) : Tiles cursor (raw :: items) last where
  rest_eq := by
    rw [List.flatMap_cons, List.append_assoc, ← hrest.rest_eq, bytes_append_drop h]
  position_eq := by
    rw [hrest.position_eq, List.flatMap_cons, List.length_append, Nat.add_assoc]
  room := by
    have hfour : 4 ≤ raw.bytes.length := (measured_of_front h).header_le
    have hroom := hrest.room
    rw [List.flatMap_cons, List.length_append, List.length_cons]
    omega
  lies before raw' others hitems := by
    -- the sub-packet is the one in front, or lies in what is left behind that
    cases before with
    | nil =>
      cases hitems
      exact lies_of_front h hrest.eq_nil
    | cons first before =>
      cases hitems
      have hbehind := hrest.lies before raw' others rfl
      rwa [List.drop_drop, ← List.length_append, ← List.flatMap_cons] at hbehind
  ended := hrest.ended

end Tiles

/-- **A walk tiles what is left**, if it has not ended before it begins. -/
theorem Cursor.Walk.tiles {cursor last : Cursor} {items : List RawPacket}
    (h : cursor.Walk items last) (hrun : cursor.ending = .running) : Tiles cursor items last := by
  -- along the walk; a sub-packet leaves a cursor that still runs, so `hrun` is there again behind it
  induction h with
  | stop hnext =>
    rcases next_eq_none_iff.mp hnext with ⟨hended, -⟩ | ⟨-, ending, hfront, rfl⟩
    · exact absurd hrun hended
    · exact .stop hfront
  | more hnext _ ih =>
    obtain ⟨-, hfront, rfl⟩ := next_eq_some_iff.mp hnext
    exact .cons hfront (ih rfl)

/-- **Any region is tiled.** Whatever its bytes are, a walk over it ends, after at most one
sub-packet for every four bytes.

* The sub-packets are, one behind the other, the bytes of the region up to the position where the
  walk stopped, which lies within the region.
* Each lies there as `ZoneRelay.Frame.Lies` says: it has 4 to 508 bytes, as many as it declares
  unless it is a login request that takes all the rest, and if it has as many, it is framed again
  as the same bytes.
* What is left says why the walk ended.
* Asked again and again, the walk gives nothing and stays where it is. -/
theorem region_tiled (region : Bytes) :
    ∃ items last, (Cursor.start region).Walk items last ∧ demux region = (items, last.ending) ∧
      4 * items.length ≤ region.length ∧
      (last.position ≤ region.length ∧
        items.flatMap RawPacket.bytes = region.take last.position ∧
        last.rest = region.drop last.position) ∧
      (∀ before raw others, items = before ++ raw :: others →
        Lies (region.drop (before.flatMap RawPacket.bytes).length) raw others) ∧
      Ended last.rest last.ending ∧
      ∀ n, ((fun cursor : Cursor => cursor.next.2)^[n] last).next = (none, last) := by
  obtain ⟨items, last, hdrain⟩ : ∃ items last, (Cursor.start region).drain = (items, last) :=
    ⟨_, _, rfl⟩
  have hwalk : (Cursor.start region).Walk items last := by
    have hdrained := (Cursor.start region).walk_drain
    rwa [hdrain] at hdrained
  have htiles := hwalk.tiles rfl
  have hregion : region = items.flatMap RawPacket.bytes ++ last.rest := htiles.rest_eq
  have hposition : last.position = (items.flatMap RawPacket.bytes).length :=
    htiles.position_eq.trans (Nat.zero_add _)
  have hlength : region.length = last.position + last.rest.length := by
    rw [hposition, hregion, List.length_append]
  have hroom := htiles.room
  have hstays : last.next = (none, last) :=
    Cursor.next_eq_none_iff.mpr (Or.inl ⟨htiles.ended.ne_running, rfl⟩)
  refine ⟨items, last, hwalk, ?_, by omega, ⟨by omega, ?_, ?_⟩, htiles.lies, htiles.ended,
    fun n => ?_⟩
  · rw [demux, hdrain]
  · rw [hposition, hregion, List.take_left]
  · rw [hposition, hregion, List.drop_left]
  · rw [Function.iterate_fixed (congrArg Prod.snd hstays), hstays]

end Frame

end ZoneRelay
